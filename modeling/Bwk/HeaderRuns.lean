import Bwk.HeaderSafety

namespace Bwk

/-!
# Invariants over runs of the worker

An invariant that every elementary write keeps holds in every state a run of
the worker goes through, whatever the environment answers and wherever the run
stops.  The argument follows the worker function by function: where it writes,
it has just established that the write is one of the elementary ones.
-/

section Sync

variable {σ Backend Raw : Type}

variable {post : α → World σ Backend Raw → Prop}
variable {fail : Halt → World σ Backend Raw → Prop}

theorem Holds.atCore
    {holds : Core Backend Raw → Prop}
    {body : WorkerM σ Backend Raw α}
    (each : ∀ core, holds core → Holds (Rests core) body post fail) :
    Holds (OnCore holds) body post fail :=
  fun world known => each world.store.core known world rfl

theorem Holds.bindWorld
    {core : Core Backend Raw}
    {next : World σ Backend Raw → WorkerM σ Backend Raw α}
    (rest :
      ∀ read : World σ Backend Raw, read.store.core = core →
        Holds (Rests core) (next read) post fail) :
    Holds (Rests core) (MonadState.get >>= next) post fail :=
  Holds.bindGet rest

theorem Rests.safe
    {rules : Rules Raw}
    {inv : Invariant Backend Raw}
    {core : Core Backend Raw}
    (safe : Safe rules inv core)
    (world : World σ Backend Raw)
    (rests : Rests core world) :
    OnCore (Safe rules inv) world := by
  rw [OnCore, show world.store.core = _ from rests]
  exact safe

variable [PersistenceBackend Backend Nat Raw]
variable {rules : Rules Raw} {inv : Invariant Backend Raw}
variable {env : Env σ Raw} {token : Nat}

theorem collectDown_holds
    {core : Core Backend Raw}
    {low floor : Nat}
    (fuel steps : Nat)
    (raws : List Raw)
    (fits : low + raws.length ≤ floor) :
    Holds (Rests core)
      (collectDown rules.btc env fuel low floor steps raws :
        WorkerM σ Backend Raw (Option (List Raw)))
      (fun result world =>
        Rests core world ∧
          ∀ all, result = some all → low + all.length = floor)
      (fun _ => Rests core) := by
  induction steps generalizing raws with
  | zero =>
      exact Holds.throw (fun _ rests => rests)
  | succ steps inductionHypothesis =>
      refine Holds.step (addU32_holds low raws.length)
        (fun _ _ rests => rests) ?_
      rintro start ⟨rfl, -⟩
      apply Holds.ite
      · intro unfinished
        apply Holds.bindGet
        intro read _
        refine Holds.bind
          (requestHeaders_keeps (fun other => other = core)
            fuel _ _) ?_
        intro answer
        cases answer with
        | none =>
            exact Holds.pure (fun _ rests => ⟨rests, by simp⟩)
        | some batch =>
            apply Holds.ite
            · intro full
              apply inductionHypothesis
              rw [List.length_append]
              omega
            · intro _
              exact Holds.pure (fun _ rests => ⟨rests, by simp⟩)
      · intro finished
        apply Holds.pure
        intro world rests
        refine ⟨rests, ?_⟩
        rintro all ⟨⟩
        omega

theorem snap_spec (btc : Bitcoin Raw) (height : Nat) (network : Network) :
    snap btc height network ≤ height ∧
      snap btc height network % retargetInterval btc network = 0 := by
  refine ⟨Nat.sub_le _ _, ?_⟩
  have shape := Nat.div_add_mod height (retargetInterval btc network)
  have snapped :
      snap btc height network =
        retargetInterval btc network *
          (height / retargetInterval btc network) := by
    rw [snap, backfillChunk]
    omega
  rw [snapped]
  exact Nat.mul_mod_right _ _

variable {chain : HeaderMap Raw} {tipHeight : Nat}

theorem covers_of_minHeight
    {btc : Bitcoin Raw}
    {floor : Nat}
    (shaped : Shaped btc chain)
    (lowest : chain.firstKey? = some floor) :
    ∃ high, floor ≤ high ∧ chain.Covers floor high := by
  rcases shaped with empty | ⟨low, high, ordered, covers, -⟩
  · rw [BTreeMap.firstKey?_eq_none_iff.mpr empty] at lowest
    cases lowest
  · rw [covers.firstKey?_eq ordered] at lowest
    cases lowest
    exact ⟨high, ordered, covers⟩

theorem extendDown_safe
    (closed : Closed rules inv)
    (clock : ∀ state reading, rules.clocks (env.clock state reading))
    (fuel height : Nat) :
    Keeps (OnCore (Safe rules inv))
      (extendDown rules.btc env token fuel height :
        WorkerM σ Backend Raw Unit) := by
  apply Holds.atCore
  intro core safe
  apply Holds.bindWorld
  rintro read rfl
  cases lowest : read.store.minHeight with
  | none =>
      apply Holds.pure
      intro world rests
      rw [OnCore, show world.store.core = _ from rests]
      exact safe
  | some floor =>
      apply Holds.ite
      · intro below
        obtain ⟨high, ordered, covers⟩ :=
          covers_of_minHeight (closed.shaped safe.chain) lowest
        obtain ⟨snapped, boundary⟩ :=
          snap_spec rules.btc height read.store.network
        refine Holds.step
          (collectDown_holds fuel fuel [] (by simp only [List.length_nil]; omega))
          ?_ ?_
        · intro _ world rests
          rw [OnCore, show world.store.core = _ from rests]
          exact safe
        · intro collected exact_
          cases collected with
          | none =>
              apply Holds.pure
              intro world rests
              rw [OnCore, show world.store.core = _ from rests]
              exact safe
          | some raws =>
              have filled := exact_ raws rfl
              apply Holds.bindGet
              intro now _
              rw [← filled] at covers
              refine Holds.bind (prepend_safe closed safe
                (clock _ _) covers ?_ ?_) ?_
              · omega
              · rw [← safe.network]
                exact boundary
              · intro _
                exact Holds.pure (fun _ kept => kept)
      · intro _
        apply Holds.pure
        intro world rests
        rw [OnCore, show world.store.core = _ from rests]
        exact safe

/-- A superseded writer, or a safe store whose chain satisfies `goal`. -/
structure SafeFor
    (rules : Rules Raw)
    (inv : Invariant Backend Raw)
    (token : Nat)
    (goal : HeaderMap Raw → Prop)
    (core : Core Backend Raw) : Prop where
  safe : Safe rules inv core
  placed : inv.writerToken ≠ token ∨ goal core.inner.chain

/-- Empty, or reaching down to `low`. -/
def Floored (low : Nat) (chain : HeaderMap Raw) : Prop :=
  chain = ∅ ∨ ReachesDown low chain

theorem lowerFloor_safe
    (closed : Closed rules inv)
    (clock : ∀ state reading, rules.clocks (env.clock state reading))
    (fuel low tipHeight : Nat) :
    Holds (OnCore (Safe rules inv))
      (lowerFloor rules.btc env token fuel low tipHeight :
        WorkerM σ Backend Raw Unit)
      (fun _ => OnCore (SafeFor rules inv token (Floored low)))
      (fun _ => OnCore (Safe rules inv)) := by
  have afterExtension :
      Holds (OnCore (Safe rules inv))
        (do
          let world ← get
          if world.store.minHeight.any (fun min => low < min) then
            updateStore (HeaderStore.wipe token) :
          WorkerM σ Backend Raw Unit)
        (fun _ => OnCore (SafeFor rules inv token (Floored low)))
        (fun _ => OnCore (Safe rules inv)) := by
    apply Holds.atCore
    intro core safe
    apply Holds.bindWorld
    rintro read rfl
    apply Holds.ite
    · intro _
      refine Holds.conseq
        (wipe_safe closed safe)
        (fun _ rests => rests) ?_ (fun _ _ impossible => impossible.elim)
      rintro _ world ⟨kept, wiped⟩
      exact ⟨kept, wiped.imp_right .inl⟩
    · intro reaches
      apply Holds.pure
      intro world rests
      rw [OnCore, show world.store.core = _ from rests]
      refine ⟨safe, .inr ?_⟩
      rcases closed.shaped safe.chain with
        empty | ⟨floor, high, ordered, covers, -⟩
      · exact .inl empty
      · refine .inr ⟨floor, high, ?_, ordered, covers⟩
        have lowest : read.store.minHeight = some floor :=
          covers.firstKey?_eq ordered
        rw [lowest] at reaches
        simpa using reaches
  apply Holds.bindGet
  intro read _
  apply Holds.ite
  · intro _
    exact Holds.bind (extendDown_safe closed clock fuel low)
      (fun _ => afterExtension)
  · intro _
    exact afterExtension

theorem fetchAndVerifyGenesis_safe
    (goal : HeaderMap Raw → Prop)
    (closed : Closed rules inv)
    (whenEmpty : goal ∅)
    (fuel : Nat)
    (expected : BlockHash) :
    Keeps (OnCore (SafeFor rules inv token goal))
      (fetchAndVerifyGenesis rules.btc env token fuel expected :
        WorkerM σ Backend Raw (Option Raw)) := by
  have wiped :
      Keeps (OnCore (SafeFor rules inv token goal))
        (do
          updateStore (HeaderStore.wipe token)
          pure none : WorkerM σ Backend Raw (Option Raw)) := by
    refine Keeps.bind ?_ (fun _ => Keeps.pure)
    apply Holds.atCore
    rintro core ⟨safe, -⟩
    refine Holds.conseq
      (wipe_safe closed safe)
      (fun _ rests => rests) ?_ (fun _ _ impossible => impossible.elim)
    rintro _ world ⟨kept, emptied⟩
    refine ⟨kept, emptied.imp_right ?_⟩
    intro empty
    rw [empty]
    exact whenEmpty
  refine Keeps.bind (requestInitialHeaders_keeps _ _ _ _ _ _ _) ?_
  intro answer
  match answer with
  | none => exact Keeps.pure
  | some [] => exact Keeps.pure
  | some (raw :: _) =>
      cases decoded : rules.btc.deserialize raw with
      | none =>
          simp only [decoded]
          exact wiped
      | some header =>
          simp only [decoded]
          exact Holds.ite (fun _ => Keeps.pure) (fun _ => wiped)

theorem empty_of_missing_genesis
    {store : HeaderStore Backend Raw}
    (shaped : Shaped rules.btc store.chain)
    (floored : Floored 0 store.chain)
    (missing : (store.header rules.btc 0).isNone) :
    store.chain = ∅ := by
  rcases floored with empty | ⟨floor, high, below, ordered, covers⟩
  · exact empty
  · rcases shaped with empty | ⟨_, _, _, _, decodes⟩
    · exact empty
    · obtain ⟨raw, present⟩ := BTreeMap.mem_iff_getElem?.mp
        ((covers 0).mpr ⟨below, by omega⟩)
      obtain ⟨header, decoded⟩ := decodes 0 raw present
      simp [HeaderStore.header, present, decoded] at missing

theorem pinGenesis_safe
    {low : Nat}
    (closed : Closed rules inv)
    (clock : ∀ state reading, rules.clocks (env.clock state reading))
    (genesis : rules.anchors 0)
    (fuel : Nat) :
    Holds (OnCore (SafeFor rules inv token (Floored low)))
      (pinGenesis rules.btc env token fuel low :
        WorkerM σ Backend Raw Bool)
      (fun _ => OnCore (SafeFor rules inv token (Floored low)))
      (fun _ => OnCore (Safe rules inv)) := by
  apply Holds.atCore
  rintro core ⟨safe, floored⟩
  apply Holds.bindWorld
  rintro read rfl
  have unchanged :
      ∀ {goal : HeaderMap Raw → Prop} {world : World σ Backend Raw},
        (inv.writerToken ≠ token ∨ goal read.store.core.inner.chain) →
          Rests read.store.core world →
            OnCore (SafeFor rules inv token goal) world := by
    intro goal world placed rests
    rw [OnCore, show world.store.core = _ from rests]
    exact ⟨safe, placed⟩
  cases expectedGenesis rules.btc read.store.network with
  | none =>
      exact Holds.pure (fun _ rests => unchanged floored rests)
  | some expected =>
      apply Holds.ite
      · rintro ⟨rfl, missing⟩
        have nothing :
            inv.writerToken ≠ token ∨ read.store.core.inner.chain = ∅ :=
          floored.imp_right (fun reaches =>
            empty_of_missing_genesis (closed.shaped safe.chain) reaches
              missing)
        refine Holds.through
          (fun _ =>
            OnCore (SafeFor rules inv token (fun chain =>
              chain = ∅)))
          (Holds.conseq
            (fetchAndVerifyGenesis_safe (fun chain => chain = ∅)
              closed rfl fuel expected)
            (fun _ rests => unchanged nothing rests)
            (fun _ _ kept => kept) (fun _ _ kept => kept.safe)) ?_
        intro answer
        cases answer with
        | none =>
            apply Holds.pure
            rintro world ⟨kept, emptied⟩
            exact ⟨kept, emptied.imp_right .inl⟩
        | some raw =>
            apply Holds.atCore
            rintro core ⟨kept, emptied⟩
            apply Holds.bindWorld
            rintro now rfl
            refine Holds.through
              (fun result =>
                OnCore (SafeFor rules inv token (fun chain =>
                  result = .ok () → Floored 0 chain))) ?_ ?_
            · refine Holds.conseq
                (append_safe closed kept (clock _ _) genesis
                  (emptied.imp_right .inl))
                (fun _ rests => rests) ?_ (fun _ _ after => after)
              rintro result world ⟨after, reached⟩
              refine ⟨after, ?_⟩
              cases result with
              | ok value =>
                  exact (reached rfl).imp_right (fun down _ => .inr down)
              | error reason =>
                  exact .inr (by simp)
            · intro result
              cases result with
              | ok value =>
                  apply Holds.pure
                  rintro world ⟨after, reached⟩
                  exact ⟨after, reached.imp_right (fun down => down rfl)⟩
              | error reason =>
                  apply Holds.atCore
                  rintro core ⟨after, -⟩
                  refine Holds.move (wipe_safe closed after)
                    (fun _ _ impossible => impossible.elim) ?_
                  intro _
                  apply Holds.pure
                  rintro world ⟨wiped, emptied⟩
                  exact ⟨wiped, emptied.imp_right .inl⟩
      · intro _
        apply Holds.ite
        · intro _
          refine Holds.bind (Holds.conseq
            (fetchAndVerifyGenesis_safe _ closed (.inl rfl) fuel
              expected)
            (fun _ rests => unchanged floored rests)
            (fun _ _ kept => kept) (fun _ _ kept => kept.safe)) ?_
          intro answer
          cases answer <;> exact Holds.pure (fun _ kept => kept)
        · intro _
          exact Holds.pure (fun _ rests => unchanged floored rests)

theorem backfill_safe
    (closed : Closed rules inv)
    (clock : ∀ state reading, rules.clocks (env.clock state reading))
    (fuel tipHeight batches start : Nat) :
    Holds
      (OnCore (SafeFor rules inv token (fun chain =>
        tipHeight ≤ start ∨ Continues rules chain start)))
      (backfill rules.btc env token fuel tipHeight batches start :
        WorkerM σ Backend Raw Bool)
      (fun _ => OnCore (Safe rules inv))
      (fun _ => OnCore (Safe rules inv)) := by
  induction batches generalizing start with
  | zero =>
      exact Holds.throw (fun _ ready => ready.safe)
  | succ batches inductionHypothesis =>
      apply Holds.ite
      · intro unfinished
        apply Holds.bindGet
        intro read _
        refine Holds.bind (Holds.conseq
          (requestInitialHeaders_keeps
            (SafeFor rules inv token (fun chain =>
              tipHeight ≤ start ∨ Continues rules chain start))
            _ _ _ _ _ _)
          (fun _ ready => ready) (fun _ _ ready => ready)
          (fun _ _ ready => ready.safe)) ?_
        intro answer
        cases answer with
        | none =>
            exact Holds.pure (fun _ ready => ready.safe)
        | some raws =>
            apply Holds.atCore
            rintro core ⟨safe, ready⟩
            apply Holds.bindWorld
            rintro now rfl
            have continues :
                inv.writerToken ≠ token ∨
                  Continues rules now.store.core.inner.chain start :=
              ready.imp_right (fun either =>
                either.resolve_left (by omega))
            refine Holds.bind
              (appendBatch_safe closed safe (clock _) continues)
              ?_
            intro result
            cases result with
            | error reason =>
                exact Holds.pure (fun _ reached => reached.1)
            | ok value =>
                refine Holds.step (addU32_holds start raws.length)
                  (fun _ _ reached => reached.1) ?_
                rintro next ⟨rfl, -⟩
                refine Holds.conseq
                  (inductionHypothesis (start + raws.length)) ?_
                  (fun _ _ kept => kept) (fun _ _ kept => kept)
                rintro world ⟨kept, promised⟩
                exact ⟨kept, (promised rfl).imp_right .inr⟩
      · intro _
        exact Holds.pure (fun _ ready => ready.safe)

theorem continues_of_floored
    {low tipHeight : Nat}
    (allowed : rules.anchors low)
    (inRange : tipHeight ≤ u32Max)
    (floored : Floored low chain) :
    let start :=
      match chain.lastKey? with
      | some tip => saturatingSucc tip
      | none => low
    tipHeight ≤ start ∨ Continues rules chain start := by
  rcases floored with rfl | ⟨floor, high, -, ordered, covers⟩
  · rw [BTreeMap.lastKey?_eq_none_iff.mpr rfl]
    exact .inr (.inl ⟨rfl, allowed⟩)
  · rw [covers.lastKey?_eq ordered]
    by_cases saturated : high < u32Max
    · refine .inr (.inr ⟨floor, high, ordered, covers, ?_⟩)
      simp only [saturatingSucc]
      omega
    · left
      simp only [saturatingSucc]
      omega

/--
Initial sync from a store safe for one property into another that the floor
stage establishes.
-/
theorem initialSync_upgrades
    {inv₂ : Invariant Backend Raw}
    (closed : Closed rules inv)
    (closed₂ : Closed rules inv₂)
    (permits : Permits rules env tipHeight)
    (upgrade :
      ∀ core : Core Backend Raw,
        SafeFor rules inv token
          (Floored
            (wantedFloor rules.btc rules.network rules.checkpoint tipHeight))
          core →
        Safe rules inv₂ core)
    (fuel : Nat) :
    Holds (OnCore (Safe rules inv))
      (initialSync rules.btc env token fuel tipHeight :
        WorkerM σ Backend Raw Bool)
      (fun _ => OnCore (Safe rules inv₂))
      (fun _ world =>
        OnCore (Safe rules inv) world ∨
          OnCore (Safe rules inv₂) world) := by
  apply Holds.bindGet
  intro read safe
  have low :
      wantedFloor rules.btc read.store.network read.store.checkpoint
          tipHeight =
        wantedFloor rules.btc rules.network rules.checkpoint tipHeight := by
    rw [show read.store.network = _ from safe.network,
      show read.store.checkpoint = _ from safe.checkpoint]
  rw [low]
  refine Holds.through
    (fun _ =>
      OnCore (SafeFor rules inv₂ token (Floored
        (wantedFloor rules.btc rules.network rules.checkpoint tipHeight))))
    (Holds.conseq
      (lowerFloor_safe closed permits.clock fuel _ tipHeight)
      (fun _ kept => kept)
      (fun _ world reached =>
        ⟨upgrade _ reached, by
          rw [← (upgrade _ reached).writerToken, reached.safe.writerToken]
          exact reached.placed⟩)
      (fun _ _ kept => .inl kept)) ?_
  intro _
  refine Holds.bind
    (Holds.conseq
      (pinGenesis_safe closed₂ permits.clock permits.genesis fuel)
      (fun _ kept => kept) (fun _ _ kept => kept)
      (fun _ _ kept => .inr kept)) ?_
  intro pinned
  refine Holds.ite (fun _ => ?_)
    (fun _ => Holds.pure (fun _ kept => kept.safe))
  apply Holds.atCore
  rintro core ⟨kept, floored⟩
  apply Holds.bindWorld
  rintro now rfl
  refine Holds.conseq
    (backfill_safe closed₂ permits.clock fuel tipHeight fuel _)
    ?_ (fun _ _ after => after) (fun _ _ after => .inr after)
  intro world rests
  rw [OnCore, show world.store.core = _ from rests]
  exact ⟨kept, floored.imp_right
    (continues_of_floored permits.floor permits.inRange)⟩

theorem initialSync_safe
    (closed : Closed rules inv)
    (permits : Permits rules env tipHeight)
    (fuel : Nat) :
    Keeps (OnCore (Safe rules inv))
      (initialSync rules.btc env token fuel tipHeight :
        WorkerM σ Backend Raw Bool) :=
  Holds.conseq
    (initialSync_upgrades closed closed permits
      (fun _ reached => reached.safe) fuel)
    (fun _ kept => kept) (fun _ _ kept => kept)
    (fun _ _ kept => kept.elim id id)

end Sync

section Reorg

variable {σ Backend Raw : Type} [PersistenceBackend Backend Nat Raw]
variable {rules : Rules Raw} {inv : Invariant Backend Raw}
variable {env : Env σ Raw} {token : Nat}

variable {core : Core Backend Raw} {btc : Bitcoin Raw}

theorem scanChunk_found
    {store : HeaderStore Backend Raw}
    {chunkStart forkHeight : Nat}
    {raws : List Raw}
    {buffer scanned : HeaderMap Raw}
    (found :
      scanChunk btc store chunkStart raws buffer =
        (.found forkHeight, scanned)) :
    forkHeight ∈ store.chain := by
  induction raws generalizing buffer with
  | nil =>
      simp [scanChunk] at found
  | cons raw below inductionHypothesis =>
      unfold scanChunk at found
      cases decoded : btc.deserialize raw with
      | none =>
          simp [decoded] at found
      | some header =>
          simp only [decoded] at found
          split at found
          · rename_i matches_
            cases found
            rw [BTreeMap.mem_iff_getElem?]
            unfold HeaderStore.blockHash HeaderStore.header at matches_
            cases present : store.chain[chunkStart + below.length]? with
            | none =>
                simp [present] at matches_
            | some stored =>
                exact ⟨stored, rfl⟩
          · exact inductionHypothesis found

theorem walkBack_holds
    {core : Core Backend Raw}
    (btc : Bitcoin Raw)
    (fuel minStored chunks walkHeight : Nat)
    (buffer : HeaderMap Raw) :
    Holds (Rests core)
      (walkBack btc env fuel minStored chunks walkHeight buffer :
        WorkerM σ Backend Raw (WalkOutcome × HeaderMap Raw))
      (fun result world =>
        Rests core world ∧
          ∀ forkHeight, result.1 = .found forkHeight →
            forkHeight ∈ core.inner.chain)
      (fun _ => Rests core) := by
  induction chunks generalizing walkHeight buffer with
  | zero =>
      exact Holds.throw (fun _ rests => rests)
  | succ chunks inductionHypothesis =>
      refine Holds.bind
        (requestHeaders_keeps (fun other => other = core)
          fuel _ _) ?_
      intro answer
      match answer with
      | none =>
          exact Holds.pure (fun _ rests => ⟨rests, by simp⟩)
      | some [] =>
          exact Holds.pure (fun _ rests => ⟨rests, by simp⟩)
      | some (raw :: rest) =>
          refine Holds.step (addU32_holds _ _) (fun _ _ rests => rests) ?_
          intro _ _
          apply Holds.bindWorld
          rintro read rfl
          rcases scanned :
              scanChunk btc read.store
                (max (walkHeight - (reorgWalkChunk - 1)) minStored)
                (raw :: rest).reverse buffer with ⟨outcome, longer⟩
          cases outcome with
          | undecodable =>
              exact Holds.pure (fun _ rests => ⟨rests, by simp⟩)
          | found forkHeight =>
              apply Holds.pure
              intro world rests
              refine ⟨rests, ?_⟩
              rintro _ ⟨⟩
              exact scanChunk_found scanned
          | noMatch =>
              apply Holds.ite
              · intro _
                exact Holds.pure (fun _ rests => ⟨rests, by simp⟩)
              · intro _
                exact inductionHypothesis _ _

theorem fetchBranch_keeps
    (holds : Core Backend Raw → Prop)
    (btc : Bitcoin Raw)
    (fuel incomingHeight steps height : Nat)
    (buffer : HeaderMap Raw) :
    Keeps (OnCore holds)
      (fetchBranch btc env fuel incomingHeight steps height buffer :
        WorkerM σ Backend Raw (Bool × HeaderMap Raw)) := by
  induction steps generalizing height buffer with
  | zero =>
      exact Keeps.throw
  | succ steps inductionHypothesis =>
      refine Holds.ite (fun _ => ?_) (fun _ => Keeps.pure)
      apply Holds.ite
      · intro _
        refine Holds.step (addU32_holds height 1) (fun _ _ kept => kept) ?_
        intro next _
        exact inductionHypothesis next buffer
      · intro _
        refine Keeps.bind Keeps.get ?_
        intro read
        refine Keeps.bind (requestHeaders_keeps _ _ _ _) ?_
        intro answer
        match answer with
        | none => exact Keeps.pure
        | some [] => exact Keeps.pure
        | some (raw :: rest) =>
            refine Holds.step (addU32_holds height _)
              (fun _ _ kept => kept) ?_
            intro next _
            exact inductionHypothesis next _

theorem switchBranch_safe
    {forkHeight incomingHeight : Nat}
    {buffer : HeaderMap Raw}
    (closed : Closed rules inv)
    (clock : ∀ state reading, rules.clocks (env.clock state reading))
    (safe : Safe rules inv core)
    (inRange : forkHeight < u32Max)
    (stored : forkHeight ∈ core.inner.chain) :
    Holds (Rests core)
      (switchBranch rules.btc env token forkHeight incomingHeight buffer :
        WorkerM σ Backend Raw Unit)
      (fun _ => OnCore (Safe rules inv))
      (fun _ => OnCore (Safe rules inv)) := by
  have unchanged := @Rests.safe σ _ _ _ _ core safe
  apply Holds.bindWorld
  rintro read rfl
  rw [show read.store.network = rules.network from safe.network]
  cases validated :
      HeaderBranch.validate rules.btc rules.network read.store.chain
        forkHeight incomingHeight buffer (env.clock read.env 0) with
  | error reason =>
      exact Holds.pure unchanged
  | ok branch =>
      cases compared :
          branch.hasMoreWorkThanActive rules.btc read.store.chain
            forkHeight with
      | error reason =>
          simp only [compared]
          exact Holds.pure unchanged
      | ok more =>
          cases more with
          | false =>
              simp only [compared]
              exact Holds.pure unchanged
          | true =>
              simp only [compared]
              obtain ⟨raws, -, rows, judged, -⟩ :=
                validate_ok rules (clock read.env 0) inRange validated
              rcases closed.shaped safe.chain with
                empty | ⟨low, high, ordered, covers, -⟩
              · simp [empty] at stored
              · have within := (covers forkHeight).mp stored
                refine Holds.bind
                  (replaceBranch_safe closed safe covers within.1
                    within.2 rows judged) ?_
                intro _
                exact Holds.pure (fun _ kept => kept)

theorem resolveReorg_safe
    {resync : WorkerM σ Backend Raw Unit}
    (closed : Closed rules inv)
    (clock : ∀ state reading, rules.clocks (env.clock state reading))
    (genesis : rules.anchors 0)
    (resyncSafe : Keeps (OnCore (Safe rules inv)) resync)
    (fuel incomingHeight : Nat)
    (incomingRaw : Raw) :
    Keeps (OnCore (Safe rules inv))
      (resolveReorg rules.btc env token fuel resync incomingHeight
        incomingRaw : WorkerM σ Backend Raw Unit) := by
  apply Holds.atCore
  intro core safe
  have unchanged := @Rests.safe σ _ _ _ _ core safe
  apply Holds.bindWorld
  rintro read rfl
  cases lowest : read.store.minHeight with
  | none =>
      have empty : read.store.core.inner.chain = ∅ :=
        BTreeMap.firstKey?_eq_none_iff.mp lowest
      refine Holds.ite (fun _ => Holds.pure unchanged) (fun _ => ?_)
      refine Holds.bind
        (append_safe closed safe (clock _ _) genesis
          (.inr (.inl empty))) ?_
      intro _
      exact Holds.pure (fun _ reached => reached.1)
  | some minStored =>
      refine Holds.ite (fun _ => Holds.pure unchanged) (fun _ => ?_)
      refine Holds.ite (fun _ => Holds.pure unchanged) (fun _ => ?_)
      refine Holds.through
        (fun result world =>
          result.1.elim (OnCore (Safe rules inv) world) (fun forkHeight =>
            Rests read.store.core world ∧
              forkHeight ∈ read.store.core.inner.chain)) ?_ ?_
      · refine Holds.step
          (walkBack_holds rules.btc fuel minStored fuel _ _)
          (fun _ world rests => unchanged world rests) ?_
        rintro ⟨outcome, buffer⟩ found
        cases outcome with
        | found forkHeight =>
            exact Holds.pure (fun _ rests =>
              ⟨rests, found forkHeight rfl⟩)
        | failed =>
            exact Holds.pure unchanged
        | exhausted =>
            refine Holds.move (wipe_safe closed safe)
              (fun _ _ impossible => impossible.elim) ?_
            intro _
            refine Holds.bind
              (Holds.conseq resyncSafe (fun _ wiped => wiped.1)
                (fun _ _ kept => kept) (fun _ _ kept => kept)) ?_
            intro _
            exact Holds.pure (fun _ kept => kept)
      · rintro ⟨outcome, buffer⟩
        cases outcome with
        | none =>
            exact Holds.pure (fun _ kept => kept)
        | some forkHeight =>
            apply Holds.assume (fun _ reached => reached.2)
            intro stored
            refine Holds.weaken (Rests read.store.core)
              (fun _ reached => reached.1) ?_
            refine Holds.step (addU32_holds forkHeight 1)
              (fun _ world rests => unchanged world rests) ?_
            rintro first ⟨rfl, fits⟩
            refine Holds.bind (Holds.conseq
              (fetchBranch_keeps
                (fun other => other = read.store.core) rules.btc
                fuel incomingHeight fuel _ buffer)
              (fun _ rests => rests) (fun _ _ rests => rests)
              (fun _ world rests => unchanged world rests)) ?_
            rintro ⟨fetched, longer⟩
            cases fetched with
            | false =>
                exact Holds.pure unchanged
            | true =>
                exact switchBranch_safe closed clock safe
                  (by omega) stored

/-- A contiguous header goes right above the range, or on an empty store. -/
theorem isContiguous_holds
    (shaped : Shaped btc core.inner.chain)
    (height : Nat)
    (header : Header) :
    Holds (Rests core)
      (isContiguous btc height header : WorkerM σ Backend Raw Bool)
      (fun contiguous world =>
        Rests core world ∧
          (contiguous = true →
            core.inner.chain = ∅ ∨
              ∃ low high,
                low ≤ high ∧ core.inner.chain.Covers low high ∧
                  height = high + 1))
      (fun _ => Rests core) := by
  apply Holds.bindWorld
  rintro read rfl
  rcases shaped with empty | ⟨low, high, ordered, covers, decodes⟩
  · cases read.store.tipWithHash btc with
    | none =>
        exact Holds.pure (fun _ rests => ⟨rests, fun _ => .inl empty⟩)
    | some tip =>
        refine Holds.step (addU32_holds _ 1) (fun _ _ rests => rests) ?_
        intro next _
        exact Holds.pure (fun _ rests => ⟨rests, fun _ => .inl empty⟩)
  · obtain ⟨tipRaw, present⟩ := BTreeMap.mem_iff_getElem?.mp
      ((covers high).mpr ⟨ordered, Nat.le_refl high⟩)
    obtain ⟨tipHeader, decoded⟩ := decodes high tipRaw present
    have tipHeight : read.store.tip = some high :=
      covers.lastKey?_eq ordered
    have tipRead :
        read.store.tipWithHash btc =
          some (high, btc.blockHash tipHeader) := by
      simp [HeaderStore.tipWithHash, tipHeight, HeaderStore.blockHash,
        HeaderStore.header,
        show read.store.chain[high]? = some tipRaw from present, decoded]
    rw [tipRead]
    refine Holds.step (addU32_holds high 1) (fun _ _ rests => rests) ?_
    rintro next ⟨rfl, -⟩
    refine Holds.pure (fun _ rests => ⟨rests, ?_⟩)
    intro contiguous
    exact .inr ⟨low, high, ordered, covers,
      (of_decide_eq_true contiguous).1⟩

theorem applyOneStep_safe
    {resync : WorkerM σ Backend Raw Unit}
    (closed : Closed rules inv)
    (clock : ∀ state reading, rules.clocks (env.clock state reading))
    (genesis : rules.anchors 0)
    (resyncSafe : Keeps (OnCore (Safe rules inv)) resync)
    (fuel height : Nat)
    (raw : Raw) :
    Keeps (OnCore (Safe rules inv))
      (applyOneStep rules.btc env token fuel resync height raw :
        WorkerM σ Backend Raw Unit) := by
  have resolved :=
    @resolveReorg_safe _ _ _ _ _ _ _ token _ closed clock genesis
      resyncSafe fuel height raw
  unfold applyOneStep
  cases rules.btc.deserialize raw with
  | none =>
      exact Keeps.pure
  | some header =>
      apply Holds.atCore
      intro core safe
      have unchanged := @Rests.safe σ _ _ _ _ core safe
      apply Holds.bindWorld
      rintro read rfl
      refine Holds.step
        (isContiguous_holds (closed.shaped safe.chain) height header)
        (fun _ world rests => unchanged world rests) ?_
      intro contiguous place
      apply Holds.ite
      · intro taken
        refine Holds.bind
          (append_safe closed safe (clock _ _) genesis
            (.inr (place taken))) ?_
        intro result
        refine Holds.weaken (OnCore (Safe rules inv))
          (fun _ reached => reached.1) ?_
        cases result with
        | ok value =>
            exact Holds.pure (fun _ kept => kept)
        | error reason =>
            cases reason with
            | checkpoint =>
                exact Holds.pure (fun _ kept => kept)
            | validate error =>
                exact resolved
            | persist error =>
                exact resolved
            | badAnchor =>
                exact resolved
            | unlinked =>
                exact resolved
      · intro _
        cases checkPow rules.btc
            (Params.new rules.btc read.store.network) header with
        | error reason =>
            exact Holds.pure unchanged
        | ok value =>
            exact Holds.conseq resolved
              (fun world rests => unchanged world rests)
              (fun _ _ kept => kept) (fun _ _ kept => kept)

/-- Applying one header, to any depth of re-syncing, keeps the store safe. -/
theorem applyOne_safe
    {height : Nat}
    (closed : Closed rules inv)
    (permits : Permits rules env height)
    (fuel depth : Nat)
    (raw : Raw) :
    Keeps (OnCore (Safe rules inv))
      (applyOne rules.btc env token fuel depth height raw :
        WorkerM σ Backend Raw Unit) := by
  induction depth with
  | zero =>
      exact Keeps.throw
  | succ depth inductionHypothesis =>
      apply applyOneStep_safe closed permits.clock permits.genesis
      refine Keeps.bind (initialSync_safe closed permits fuel) ?_
      intro synced
      exact Holds.ite (fun _ => inductionHypothesis) (fun _ => Keeps.pure)

end Reorg

section Runs

variable {σ Backend Raw : Type} [PersistenceBackend Backend Nat Raw]
variable {rules : Rules Raw} {inv : Invariant Backend Raw}
variable {env : Env σ Raw} {token : Nat}

theorem toNat_le_u32Max (height : UInt32) : height.toNat ≤ u32Max := by
  have bound := height.toNat_lt
  simp only [u32Max]
  omega

theorem awaitTip_holds
    {holds : Core Backend Raw → Prop}
    (waits : Nat) :
    Holds (OnCore holds)
      (awaitTip env token waits :
        WorkerM σ Backend Raw (Option (Nat × Raw)))
      (fun tip world =>
        OnCore holds world ∧
          ∀ announced, tip = some announced → announced.1 ≤ u32Max)
      (fun _ => OnCore holds) := by
  induction waits with
  | zero =>
      exact Holds.throw (fun _ kept => kept)
  | succ waits again =>
      refine Holds.bind recv_keeps ?_
      intro event
      cases event with
      | disconnected =>
          exact Holds.pure (fun _ kept => ⟨kept, by simp⟩)
      | timeout =>
          exact again
      | response response =>
          refine Holds.bind (isStale_keeps token) ?_
          intro stale
          apply Holds.ite
          · intro _
            exact Holds.pure (fun _ kept => ⟨kept, by simp⟩)
          · intro _
            cases response with
            | tip height raw =>
                refine Holds.pure (fun _ kept => ⟨kept, ?_⟩)
                rintro _ ⟨⟩
                exact toNat_le_u32Max height
            | stopped =>
                exact Holds.pure (fun _ kept => ⟨kept, by simp⟩)
            | header height raw =>
                exact again
            | batch start raws =>
                exact again
            | woken =>
                exact again
            | error reason =>
                exact again

theorem startUp_safe
    (closed : Closed rules inv)
    (permits : ∀ height ≤ u32Max, Permits rules env height)
    (fuel : Nat) :
    Keeps (OnCore (Safe rules inv))
      (startUp rules.btc env token fuel : WorkerM σ Backend Raw Bool) := by
  refine Keeps.bind (isStale_keeps token) ?_
  intro stale
  refine Holds.ite (fun _ => Keeps.pure) (fun _ => ?_)
  refine Keeps.bind (send_keeps _) ?_
  intro sent
  refine Holds.ite (fun _ => Keeps.pure) (fun _ => ?_)
  refine Holds.step (awaitTip_holds fuel) (fun _ _ kept => kept) ?_
  intro tip inRange
  cases tip with
  | none =>
      exact Keeps.pure
  | some announced =>
      have allowed := permits announced.1 (inRange announced rfl)
      refine Keeps.bind (initialSync_safe closed allowed fuel) ?_
      intro synced
      refine Holds.ite (fun _ => ?_) (fun _ => Keeps.pure)
      refine Keeps.bind Keeps.get ?_
      intro read
      apply Holds.ite
      · intro _
        exact Keeps.bind
          (applyOne_safe closed allowed fuel fuel announced.2)
          (fun _ => Keeps.pure)
      · intro _
        exact Keeps.pure

theorem applyBatch_safe
    (closed : Closed rules inv)
    (permits : ∀ height ≤ u32Max, Permits rules env height)
    (fuel start index : Nat)
    (raws : List Raw) :
    Keeps (OnCore (Safe rules inv))
      (applyBatch rules.btc env token fuel start index raws :
        WorkerM σ Backend Raw Unit) := by
  induction raws generalizing index with
  | nil =>
      exact Keeps.pure
  | cons raw rest inductionHypothesis =>
      refine Holds.step (addU32_holds start index)
        (fun _ _ kept => kept) ?_
      rintro height ⟨rfl, fits⟩
      exact Keeps.bind
        (applyOne_safe closed (permits _ fits) fuel fuel raw)
        (fun _ => inductionHypothesis (index + 1))

theorem drainDeferred_safe
    (closed : Closed rules inv)
    (permits : ∀ height ≤ u32Max, Permits rules env height)
    (fuel items : Nat) :
    Keeps (OnCore (Safe rules inv))
      (drainDeferred rules.btc env token fuel items :
        WorkerM σ Backend Raw Bool) := by
  induction items with
  | zero =>
      exact Keeps.throw
  | succ items again =>
      refine Keeps.bind popDeferred_keeps ?_
      intro item
      cases item with
      | none =>
          exact Keeps.pure
      | some parked =>
          refine Keeps.bind (isStale_keeps token) ?_
          intro stale
          refine Holds.ite (fun _ => Keeps.pure) (fun _ => ?_)
          exact Keeps.bind
            (applyOne_safe closed
              (permits _ (toNat_le_u32Max parked.1)) fuel fuel parked.2)
            (fun _ => again)

theorem steadyState_safe
    (closed : Closed rules inv)
    (permits : ∀ height ≤ u32Max, Permits rules env height)
    (fuel rounds : Nat) :
    Keeps (OnCore (Safe rules inv))
      (steadyState rules.btc env token fuel rounds :
        WorkerM σ Backend Raw Unit) := by
  induction rounds with
  | zero =>
      exact Keeps.throw
  | succ rounds again =>
      refine Keeps.bind
        (drainDeferred_safe closed permits fuel fuel) ?_
      intro drained
      refine Holds.ite (fun _ => Keeps.pure) (fun _ => ?_)
      refine Keeps.bind takeExtendDown_keeps ?_
      intro wanted
      cases wanted with
      | some height =>
          exact Keeps.bind
            (extendDown_safe closed
              (permits 0 (Nat.zero_le _)).clock fuel height)
            (fun _ => again)
      | none =>
          refine Keeps.bind recv_keeps ?_
          intro event
          cases event with
          | disconnected =>
              exact Keeps.pure
          | timeout =>
              refine Keeps.bind (isStale_keeps token) ?_
              intro stale
              exact Holds.ite (fun _ => Keeps.pure) (fun _ => again)
          | response response =>
              refine Keeps.bind (isStale_keeps token) ?_
              intro stale
              refine Holds.ite (fun _ => Keeps.pure) (fun _ => ?_)
              cases response with
              | tip height raw | header height raw =>
                  exact Keeps.bind
                    (applyOne_safe closed
                      (permits _ (toNat_le_u32Max height)) fuel fuel raw)
                    (fun _ => again)
              | batch start raws =>
                  exact Keeps.bind
                    (applyBatch_safe closed permits fuel _ 0 raws)
                    (fun _ => again)
              | stopped =>
                  exact Keeps.pure
              | woken =>
                  exact again
              | error reason =>
                  exact again

theorem runWorker_safe
    (token : Nat)
    (closed : Closed rules inv)
    (permits : ∀ height ≤ u32Max, Permits rules env height)
    (fuel : Nat) :
    Keeps (OnCore (Safe rules inv))
      (runWorker rules.btc env token fuel : WorkerM σ Backend Raw Unit) := by
  refine Keeps.bind (startUp_safe closed permits fuel) ?_
  intro started
  exact Holds.ite
    (fun _ => steadyState_safe closed permits fuel fuel)
    (fun _ => Keeps.pure)

theorem runSessions_safe
    (closed : Closed rules inv)
    (permits : ∀ height ≤ u32Max, Permits rules env height)
    (sessions : List (σ × Nat))
    (store : HeaderStore Backend Raw)
    (safe :
      Safe rules { inv with writerToken := store.writerToken } store.core) :
    let after := runSessions rules.btc env sessions store
    Safe rules { inv with writerToken := after.writerToken } after.core := by
  induction sessions generalizing store with
  | nil =>
      exact safe
  | cons session later inductionHypothesis =>
      apply inductionHypothesis
      have closedNow :
          Closed rules { inv with writerToken := store.writerToken } :=
        ⟨closed.shaped, closed.write, closed.recorded, closed.stable⟩
      have kept :=
        Holds.finalState
          (runWorker_safe store.writerToken closedNow permits session.2)
          { store := store, env := session.1, deferred := [] } safe
      exact ⟨kept.network, kept.checkpoint, rfl, kept.chain, kept.locked,
        kept.released⟩

end Runs

section Opening

variable {Backend Raw : Type} [PersistenceBackend Backend Nat Raw]

theorem chain_clearStore (store : HeaderStore Backend Raw) :
    store.clearStore.chain = ∅ := by
  have cleared := clearInner_holds store.inner.chain store.inner rfl
  unfold HeaderStore.clearStore
  cases outcome : (clearInner : Locked Backend Raw Unit) store.inner with
  | ok value inner | error reason inner =>
      rw [outcome] at cleared
      exact cleared

variable (btc : Bitcoin Raw) (nowSecs : Nat) (network : Network)
variable (checkpoint : Option Checkpoint)

/-- An opened store is empty or holds persisted rows that passed both checks. -/
theorem chain_withCheckpoint
    (backend : Backend) :
    let store := HeaderStore.withCheckpoint btc nowSecs network checkpoint
      backend
    let rows := PersistenceBackend.rows backend
    store.chain = ∅ ∨
      store.chain = rows ∧
        sanityCheck btc network checkpoint rows = .ok () ∧
        replayValidate btc network rows nowSecs = .ok () := by
  intro store rows
  have loaded :
      (HeaderStore.load network checkpoint backend).chain = rows := rfl
  simp only [store, HeaderStore.withCheckpoint,
    HeaderStore.startReplayValidation, loaded]
  split
  · rename_i empty
    left
    exact Std.ExtTreeMap.isEmpty_iff.mp empty
  · split
    · left
      exact chain_clearStore _
    · rename_i sane
      split
      · left
        exact chain_clearStore _
      · rename_i replayed
        exact .inr ⟨rfl, sane, replayed⟩

theorem withCheckpoint_fresh
    (backend : Backend) :
    let store := HeaderStore.withCheckpoint btc nowSecs network checkpoint
      backend
    store.network = network ∧ store.checkpoint = checkpoint ∧
      store.released = [] := by
  have cleared :
      ∀ store : HeaderStore Backend Raw,
        store.clearStore.network = store.network ∧
          store.clearStore.checkpoint = store.checkpoint ∧
          store.clearStore.released = store.released := by
    intro store
    unfold HeaderStore.clearStore
    split <;> exact ⟨rfl, rfl, rfl⟩
  have clearedLoad := cleared (HeaderStore.load network checkpoint backend)
  simp only [HeaderStore.withCheckpoint, HeaderStore.startReplayValidation]
  split
  · exact ⟨rfl, rfl, rfl⟩
  · split
    · exact clearedLoad
    · split
      · exact clearedLoad
      · exact ⟨rfl, rfl, rfl⟩

end Opening

end Bwk
