import Bwk.HeaderWorker
import Bwk.HeaderWrites

namespace Bwk

/-!
# Safe stores

What it means for a store to satisfy an invariant now and at every point a
writer let the lock go, and that the worker's single steps keep it so: talking
to the server leaves the store alone, and a mutator only makes writes the
invariant is closed under.
-/

/-- The part of the store that only its writers change. -/
structure Core (Backend Raw : Type) where
  network : Network
  checkpoint : Option Checkpoint
  inner : Inner Backend Raw
  writerToken : Nat
  released : List (Inner Backend Raw)

/-- Forget what other threads may change. -/
def HeaderStore.core (store : HeaderStore Backend Raw) :
    Core Backend Raw where
  network := store.network
  checkpoint := store.checkpoint
  inner := store.inner
  writerToken := store.writerToken
  released := store.released

/-- Let the lock go on `inner`. -/
def Core.release
    (core : Core Backend Raw)
    (inner : Inner Backend Raw) : Core Backend Raw :=
  { core with inner := inner, released := core.released ++ [inner] }

/-- The store's core is `core`. -/
def Rests
    (core : Core Backend Raw)
    (world : World σ Backend Raw) : Prop :=
  world.store.core = core

def OnCore
    (property : Core Backend Raw → Prop)
    (world : World σ Backend Raw) : Prop :=
  property world.store.core

section Channel

variable {σ Backend Raw : Type}
variable {property : Core Backend Raw → Prop} {env : Env σ Raw}

theorem send_keeps (request : HeaderRequest) :
    Keeps (OnCore property)
      (send env request : WorkerM σ Backend Raw Bool) := by
  apply Holds.bindGet
  intro read holds
  cases answered : env.send request read.env with
  | none =>
      exact Holds.pure (fun _ kept => kept)
  | some next =>
      exact fun _ _ => holds

theorem isStale_keeps (token : Nat) :
    Keeps (OnCore property)
      (isStale token : WorkerM σ Backend Raw Bool) :=
  Keeps.bind Keeps.get (fun _ => Keeps.pure)

theorem pushDeferred_keeps (item : UInt32 × Raw) :
    Keeps (OnCore property)
      (pushDeferred item : WorkerM σ Backend Raw Unit) := by
  apply Holds.modify
  intro world holds
  unfold OnCore
  split
  · exact holds
  · exact holds

theorem popDeferred_keeps :
    Keeps (OnCore property)
      (popDeferred : WorkerM σ Backend Raw (Option (UInt32 × Raw))) := by
  apply Holds.bindGet
  intro read holds
  cases queued : read.deferred with
  | nil =>
      exact Holds.pure (fun _ kept => kept)
  | cons item rest =>
      exact fun _ _ => holds

theorem takeExtendDown_keeps :
    Keeps (OnCore property)
      (takeExtendDown : WorkerM σ Backend Raw (Option Nat)) := by
  apply Holds.bindGet
  intro read holds
  exact fun _ _ => holds

theorem addU32_holds
    {pre : World σ Backend Raw → Prop}
    (left right : Nat) :
    Holds pre (addU32 left right : WorkerM σ Backend Raw Nat)
      (fun sum world =>
        pre world ∧ sum = left + right ∧ left + right ≤ u32Max)
      (fun _ => pre) := by
  unfold addU32
  exact Holds.ite
    (fun fits => Holds.pure (fun _ holds => ⟨holds, rfl, fits⟩))
    (fun _ => Holds.throw (fun _ holds => holds))

variable [PersistenceBackend Backend Nat Raw]

theorem core_outside
    (store : HeaderStore Backend Raw)
    (actions : List Outside) :
    (actions.foldl Outside.apply store).core = store.core := by
  induction actions generalizing store with
  | nil =>
      rfl
  | cons action rest inductionHypothesis =>
      rw [List.foldl_cons, inductionHypothesis]
      cases action with
      | stop =>
          rfl
      | requestExtendDown height =>
          simp only [Outside.apply, HeaderStore.requestExtendDown]
          split
          · rfl
          · split <;> rfl

theorem recv_keeps :
    Keeps (OnCore property)
      (recv env : WorkerM σ Backend Raw (RecvEvent Raw)) := by
  intro world holds
  show property _
  rw [core_outside]
  exact holds

theorem receiveHeaders_keeps (start fuel : Nat) :
    Keeps (OnCore property)
      (receiveHeaders env start fuel :
        WorkerM σ Backend Raw (RequestHeadersOutcome Raw)) := by
  induction fuel with
  | zero =>
      exact Keeps.throw
  | succ fuel again =>
      refine Keeps.bind recv_keeps ?_
      intro event
      cases event with
      | timeout =>
          exact Keeps.pure
      | disconnected =>
          exact Keeps.pure
      | response response =>
          cases response with
          | batch answered raws =>
              exact Holds.ite (fun _ => Keeps.pure) (fun _ => again)
          | tip height raw | header height raw =>
              exact Keeps.bind (pushDeferred_keeps _) (fun _ => again)
          | stopped =>
              exact Keeps.pure
          | woken =>
              exact again
          | error reason =>
              cases reason with
              | getHeaders answered | getHeadersDecode answered =>
                  exact Holds.ite (fun _ => Keeps.pure) (fun _ => again)
              | other =>
                  exact again

theorem requestHeaders_keeps
    (property : Core Backend Raw → Prop)
    (fuel start count : Nat) :
    Keeps (OnCore property)
      (requestHeaders env fuel start count :
        WorkerM σ Backend Raw (Option (List Raw))) := by
  refine Keeps.bind (send_keeps _) ?_
  intro sent
  refine Holds.ite (fun _ => ?_) (fun _ => Keeps.pure)
  refine Keeps.bind (receiveHeaders_keeps start fuel) ?_
  intro outcome
  cases outcome <;> exact Keeps.pure

theorem receiveInitialHeaders_keeps
    (property : Core Backend Raw → Prop)
    (token fuel start count attempts : Nat)
    (again :
      ∀ sending,
        Keeps (OnCore property)
          (requestInitialHeaders env token fuel start count attempts sending :
            WorkerM σ Backend Raw (Option (List Raw)))) :
    Keeps (OnCore property)
      (do
        let outcome ← receiveHeaders env start fuel
        if ← isStale token then
          return none
        match outcome with
        | .batch [] =>
            requestInitialHeaders env token fuel start count attempts true
        | .batch raws => pure (some raws)
        | .failed =>
            requestInitialHeaders env token fuel start count attempts true
        | .timeout =>
            requestInitialHeaders env token fuel start count attempts false
        | .cancelled => pure none :
        WorkerM σ Backend Raw (Option (List Raw))) := by
  refine Keeps.bind (receiveHeaders_keeps start fuel) ?_
  intro outcome
  refine Keeps.bind (isStale_keeps token) ?_
  intro stale
  refine Holds.ite (fun _ => Keeps.pure) (fun _ => ?_)
  cases outcome with
  | batch raws =>
      cases raws with
      | nil =>
          exact again true
      | cons raw rest =>
          exact Keeps.pure
  | failed =>
      exact again true
  | timeout =>
      exact again false
  | cancelled =>
      exact Keeps.pure

theorem requestInitialHeaders_keeps
    (property : Core Backend Raw → Prop)
    (token fuel start count attempts : Nat)
    (sending : Bool) :
    Keeps (OnCore property)
      (requestInitialHeaders env token fuel start count attempts sending :
        WorkerM σ Backend Raw (Option (List Raw))) := by
  induction attempts generalizing sending with
  | zero =>
      exact Keeps.throw
  | succ attempts again =>
      have receiving :=
        receiveInitialHeaders_keeps property token fuel start count attempts
          again
      refine Keeps.bind (isStale_keeps token) ?_
      intro stale
      refine Holds.ite (fun _ => Keeps.pure) (fun _ => ?_)
      refine Holds.ite (fun _ => ?_) (fun _ => receiving)
      refine Keeps.bind (send_keeps _) ?_
      intro sent
      exact Holds.ite (fun _ => Keeps.pure) (fun _ => receiving)

end Channel

/-- Empty, or one interval of headers that decode. -/
def Shaped (btc : Bitcoin Raw) (chain : HeaderMap Raw) : Prop :=
  chain = ∅ ∨
    ∃ low high,
      low ≤ high ∧ chain.Covers low high ∧
        ∀ (height : Nat) raw, chain[height]? = some raw →
          ∃ header, btc.deserialize raw = some header

/-- What a run is to keep true. -/
structure Invariant (Backend Raw : Type) where
  /-- The token of the authoritative writer. -/
  writerToken : Nat
  /-- Of the chain as it stands. -/
  chain : HeaderMap Raw → Prop
  /-- Of every chain a writer released. -/
  past : HeaderMap Raw → Prop
  /-- Of everything the lock guards, now and whenever it was released. -/
  locked : Inner Backend Raw → Prop

section Closed

variable {Backend Raw : Type} [PersistenceBackend Backend Nat Raw]

/-- Every mutator keeps `locked`, whatever it is called with. -/
structure Stable
    (rules : Rules Raw)
    (locked : Inner Backend Raw → Prop) : Prop where
  clear : Keeps locked clearInner
  append :
    ∀ height raw incoming nowSecs,
      Keeps locked
        (appendLocked rules.btc rules.network rules.checkpoint height raw
          incoming nowSecs)
  appendBatch :
    ∀ now start raws,
      Keeps locked
        (appendBatchLocked rules.btc rules.network rules.checkpoint now
          start raws)
  replaceBranch :
    ∀ forkHeight branch,
      Keeps locked
        (replaceBranchLocked rules.btc rules.checkpoint forkHeight branch)
  prepend :
    ∀ nowSecs low floor raws,
      Keeps locked
        (prependLocked rules.btc rules.network rules.checkpoint nowSecs low
          floor raws)

/-- The elementary writes keep the invariant, and it knows the shape. -/
structure Closed
    (rules : Rules Raw)
    (inv : Invariant Backend Raw) : Prop where
  shaped : ∀ {chain}, inv.chain chain → Shaped rules.btc chain
  write :
    ∀ {chain after}, inv.chain chain → Write rules chain after →
      inv.chain after
  recorded : ∀ {chain}, inv.chain chain → inv.past chain
  stable : Stable rules inv.locked

variable {rules : Rules Raw} {inv : Invariant Backend Raw}

theorem Closed.grows
    (closed : Closed rules inv)
    {chain after : HeaderMap Raw}
    (holds : inv.chain chain)
    (grows : Grows rules chain after) :
    inv.chain after := by
  induction grows with
  | refl =>
      exact holds
  | tail _ grown inductionHypothesis =>
      exact closed.write inductionHypothesis (.inl grown)

theorem Closed.empty
    (closed : Closed rules inv)
    {chain : HeaderMap Raw}
    (holds : inv.chain chain) :
    inv.chain ∅ :=
  closed.write holds (.inl (.clear chain))

end Closed

/-- The store is run by `rules` and satisfies the invariant. -/
structure Safe
    (rules : Rules Raw)
    (inv : Invariant Backend Raw)
    (core : Core Backend Raw) : Prop where
  network : core.network = rules.network
  checkpoint : core.checkpoint = rules.checkpoint
  writerToken : core.writerToken = inv.writerToken
  chain : inv.chain core.inner.chain
  locked : inv.locked core.inner
  released :
    ∀ inner ∈ core.released, inv.past inner.chain ∧ inv.locked inner

theorem Safe.release
    {rules : Rules Raw}
    {inv : Invariant Backend Raw}
    {core : Core Backend Raw}
    (safe : Safe rules inv core)
    {inner : Inner Backend Raw}
    (holds : inv.chain inner.chain)
    (recorded : inv.past inner.chain)
    (locked : inv.locked inner) :
    Safe rules inv (core.release inner) where
  network := safe.network
  checkpoint := safe.checkpoint
  writerToken := safe.writerToken
  chain := holds
  locked := locked
  released := by
    intro other member
    rcases List.mem_append.mp member with before | now
    · exact safe.released other before
    · rw [List.mem_singleton.mp now]
      exact ⟨recorded, locked⟩

/-- What the rules must admit for a run against `env` at this tip height. -/
structure Permits
    (rules : Rules Raw)
    (env : Env σ Raw)
    (tipHeight : Nat) : Prop where
  clock : ∀ state reading, rules.clocks (env.clock state reading)
  genesis : rules.anchors 0
  floor :
    rules.anchors
      (wantedFloor rules.btc rules.network rules.checkpoint tipHeight)
  inRange : tipHeight ≤ u32Max

theorem mutate_withWriter_holds
    {core : Core Backend Raw}
    {token : Nat}
    {body : HeaderStore Backend Raw → Locked Backend Raw Unit}
    (pre : Inner Backend Raw → Prop)
    {post : Unit → Inner Backend Raw → Prop}
    {fail : Abort → Inner Backend Raw → Prop}
    (start : pre core.inner)
    (spec :
      core.writerToken = token →
        ∀ store : HeaderStore Backend Raw, store.core = core →
          Holds pre (body store) post fail) :
    Holds (Rests core)
      (mutate (fun store => store.withWriter token (body store)) :
        WorkerM σ Backend Raw (Except MutateError Unit))
      (fun result world =>
        (core.writerToken ≠ token ∧ world.store.core = core) ∨
          ∃ inner,
            core.writerToken = token ∧
            world.store.core = core.release inner ∧
            match result with
            | .ok () => post () inner
            | .error reason => fail (.error reason) inner)
      (fun _ world =>
        ∃ inner,
          world.store.core = core.release inner ∧ fail .panic inner) := by
  intro world rests
  have sameCore : world.store.core = core := rests
  have sameToken : world.store.writerToken = core.writerToken := by
    rw [← sameCore]
    rfl
  have sameInner : world.store.inner = core.inner := by
    rw [← sameCore]
    rfl
  by_cases stale : world.store.writerToken ≠ token
  · simp only [mutate, HeaderStore.withWriter, stale, ne_eq,
      not_false_eq_true, ↓reduceIte]
    exact .inl ⟨sameToken ▸ stale, sameCore⟩
  · have current : core.writerToken = token := by
      rw [← sameToken]
      exact not_not.mp stale
    have reached := spec current world.store sameCore world.store.inner
      (sameInner ▸ start)
    have released :
        ∀ inner,
          (world.store.release inner).core = core.release inner := by
      intro inner
      rw [← sameCore]
      rfl
    simp only [mutate, HeaderStore.withWriter, stale, ↓reduceIte]
    cases outcome : body world.store world.store.inner with
    | ok value inner =>
        rw [outcome] at reached
        exact .inr ⟨inner, current, released inner, reached⟩
    | error reason inner =>
        rw [outcome] at reached
        cases reason with
        | error reason =>
            exact .inr ⟨inner, current, released inner, reached⟩
        | panic =>
            exact ⟨inner, released inner, reached⟩

section Writing

variable {σ Backend Raw : Type} [PersistenceBackend Backend Nat Raw]
variable {rules : Rules Raw} {inv : Invariant Backend Raw}
variable {token : Nat}

variable {core : Core Backend Raw}

/--
An operation whose body keeps the invariant keeps the store safe, and its
success under the current token leaves what the body promises.
-/
theorem mutate_withWriter_safe
    {body : HeaderStore Backend Raw → Locked Backend Raw Unit}
    (promise : HeaderMap Raw → Prop)
    (closed : Closed rules inv)
    (safe : Safe rules inv core)
    (stable :
      ∀ store : HeaderStore Backend Raw, store.core = core →
        Keeps inv.locked (body store))
    (spec :
      core.writerToken = token →
        ∀ store : HeaderStore Backend Raw, store.core = core →
          Holds (Stores core.inner.chain) (body store)
            (fun _ inner => inv.chain inner.chain ∧ promise inner.chain)
            (fun _ inner => inv.chain inner.chain)) :
    Holds (Rests core)
      (mutate (fun store => store.withWriter token (body store)) :
        WorkerM σ Backend Raw (Except MutateError Unit))
      (fun result world =>
        Safe rules inv world.store.core ∧
          (result = .ok () →
            inv.writerToken ≠ token ∨
              promise world.store.core.inner.chain))
      (fun _ world => Safe rules inv world.store.core) := by
  refine Holds.conseq
    (mutate_withWriter_holds
      (fun inner => Stores core.inner.chain inner ∧ inv.locked inner)
      ⟨rfl, safe.locked⟩
      (fun current store same =>
        Holds.and (spec current store same) (stable store same)))
    (fun _ rests => rests) ?_ ?_
  · rintro result world (⟨stale, same⟩ | ⟨inner, -, same, outcome⟩)
    · rw [same]
      exact ⟨safe, fun _ => .inl (safe.writerToken ▸ stale)⟩
    · rw [same]
      cases result with
      | ok value =>
          obtain ⟨⟨holds, promised⟩, locked⟩ := outcome
          exact ⟨safe.release holds (closed.recorded holds) locked,
            fun _ => .inr promised⟩
      | error reason =>
          exact ⟨safe.release outcome.1 (closed.recorded outcome.1)
            outcome.2, by simp⟩
  · rintro _ world ⟨inner, same, holds, locked⟩
    rw [same]
    exact safe.release holds (closed.recorded holds) locked

theorem wipe_safe
    (closed : Closed rules inv)
    (safe : Safe rules inv core) :
    Holds (Rests core)
      (updateStore (HeaderStore.wipe token) :
        WorkerM σ Backend Raw Unit)
      (fun _ world =>
        Safe rules inv world.store.core ∧
          (inv.writerToken ≠ token ∨
            world.store.core.inner.chain = ∅))
      (fun _ _ => False) := by
  have emptied := closed.empty safe.chain
  have cleared :=
    Holds.and (clearInner_holds core.inner.chain)
      closed.stable.clear
  intro world rests
  have sameCore : world.store.core = core := rests
  have sameInner : world.store.inner = core.inner := by
    rw [← sameCore]
    rfl
  show Safe rules inv (world.store.wipe token).core ∧
    (inv.writerToken ≠ token ∨
      (world.store.wipe token).core.inner.chain = ∅)
  unfold HeaderStore.wipe HeaderStore.withWriter
  split
  · rename_i stale
    rw [sameCore]
    refine ⟨safe, .inl ?_⟩
    rw [← safe.writerToken, ← sameCore]
    exact stale
  · have reached := cleared world.store.inner
      ⟨congrArg Inner.chain sameInner, sameInner ▸ safe.locked⟩
    have released :
        ∀ inner : Inner Backend Raw, inner.chain = ∅ → inv.locked inner →
          Safe rules inv (world.store.release inner).core ∧
            (inv.writerToken ≠ token ∨
              (world.store.release inner).core.inner.chain = ∅) := by
      intro inner empty locked
      have shape :
          (world.store.release inner).core = core.release inner := by
        rw [← sameCore]
        rfl
      rw [shape]
      refine ⟨safe.release ?_ ?_ locked, .inr empty⟩
      · rw [empty]
        exact emptied
      · rw [empty]
        exact closed.recorded emptied
    cases outcome : (clearInner : Locked Backend Raw Unit)
        world.store.inner with
    | ok value inner | error reason inner =>
        rw [outcome] at reached
        exact released inner reached.1 reached.2

/-- A range that reaches down to `low`. -/
def ReachesDown (low : Nat) (chain : HeaderMap Raw) : Prop :=
  ∃ floor high, floor ≤ low ∧ floor ≤ high ∧ chain.Covers floor high

variable {height : Nat} {raw : Raw} {raws : List Raw}

theorem anchors_of_appended
    {after : HeaderMap Raw}
    (genesis : rules.anchors 0)
    (appended : Appended rules ∅ height raw after) :
    height = 0 ∧ rules.Anchors 0 raw := by
  obtain ⟨header, nowSecs, decoded, clock, accepted⟩ := appended.judged
  rw [decodeAncestors_of_gap rules.btc height (by simp)] at accepted
  by_cases atZero : height = 0
  · subst atZero
    refine ⟨rfl, genesis, by simp, header, nowSecs, decoded, clock, ?_⟩
    simpa [replayRow] using accepted
  · rw [validateAppend_eq_ok_iff atZero] at accepted
    obtain ⟨-, prev, parent, -⟩ := accepted
    simp at parent

theorem grows_of_appended
    {chain after : HeaderMap Raw}
    (genesis : rules.anchors 0)
    (place :
      chain = ∅ ∨
        ∃ low high,
          low ≤ high ∧ chain.Covers low high ∧ height = high + 1)
    (appended : Appended rules chain height raw after) :
    Grows rules chain after ∧ ReachesDown height after := by
  rw [appended.shape]
  rcases place with rfl | ⟨low, high, ordered, covers, rfl⟩
  · obtain ⟨rfl, anchored⟩ := anchors_of_appended genesis appended
    exact ⟨.single (.anchor anchored appended.admitted),
      0, 0, Nat.le_refl 0, Nat.le_refl 0, BTreeMap.covers_singleton 0 raw⟩
  · exact ⟨.single (.extend covers ordered appended.judged
        appended.admitted),
      low, high + 1, by omega, by omega, covers.insertAbove ordered raw⟩

theorem append_safe
    {height nowSecs : Nat}
    (closed : Closed rules inv)
    (safe : Safe rules inv core)
    (clock : rules.clocks nowSecs)
    (genesis : rules.anchors 0)
    (place :
      inv.writerToken ≠ token ∨ core.inner.chain = ∅ ∨
        ∃ low high,
          low ≤ high ∧ core.inner.chain.Covers low high ∧
            height = high + 1) :
    Holds (Rests core)
      (mutate (HeaderStore.append rules.btc nowSecs token height raw) :
        WorkerM σ Backend Raw (Except MutateError Unit))
      (fun result world =>
        Safe rules inv world.store.core ∧
          (result = .ok () →
            inv.writerToken ≠ token ∨
              ReachesDown height world.store.core.inner.chain))
      (fun _ world => Safe rules inv world.store.core) := by
  cases decoded : rules.btc.deserialize raw with
  | none =>
      intro world rests
      simp only [mutate, HeaderStore.append, decoded]
      rw [show world.store.core = core from rests]
      exact ⟨safe, by simp⟩
  | some incoming =>
      have shape :
          (HeaderStore.append rules.btc nowSecs token height raw :
            HeaderStore Backend Raw → _) =
            fun store =>
              store.withWriter token
                (appendLocked rules.btc store.network store.checkpoint
                  height raw incoming nowSecs) := by
        funext store
        simp only [HeaderStore.append, decoded]
      rw [shape]
      refine mutate_withWriter_safe
        (ReachesDown height) closed safe ?_ ?_
      · rintro store rfl
        rw [show store.network = rules.network from safe.network,
          show store.checkpoint = rules.checkpoint from safe.checkpoint]
        exact closed.stable.append _ _ _ _
      rintro current store rfl
      have place := place.resolve_left
        (not_not.mpr (safe.writerToken.symm.trans current))
      rw [show store.network = rules.network from safe.network,
        show store.checkpoint = rules.checkpoint from safe.checkpoint]
      have grown :
          ∀ inner : Inner Backend Raw,
            Appended rules store.core.inner.chain height raw inner.chain →
              inv.chain inner.chain ∧ ReachesDown height inner.chain := by
        intro inner appended
        obtain ⟨grows, reaches⟩ :=
          grows_of_appended genesis place appended
        exact ⟨closed.grows safe.chain grows, reaches⟩
      refine Holds.conseq
        (appendLocked_holds rules store.core.inner.chain clock decoded)
        (fun _ same => same) (fun _ inner appended => grown inner appended)
        ?_
      rintro _ inner (same | cleared | appended)
      · rw [show inner.chain = _ from same]
        exact safe.chain
      · rw [show inner.chain = _ from cleared]
        exact closed.empty safe.chain
      · exact (grown inner appended).1

theorem appendBatch_safe
    {start : Nat}
    {now : Nat → Nat}
    (closed : Closed rules inv)
    (safe : Safe rules inv core)
    (clock : ∀ reading, rules.clocks (now reading))
    (continues :
      inv.writerToken ≠ token ∨
        Continues rules core.inner.chain start) :
    Holds (Rests core)
      (mutate (HeaderStore.appendBatch rules.btc now token start raws) :
        WorkerM σ Backend Raw (Except MutateError Unit))
      (fun result world =>
        Safe rules inv world.store.core ∧
          (result = .ok () →
            inv.writerToken ≠ token ∨
              Continues rules world.store.core.inner.chain
                (start + raws.length)))
      (fun _ world => Safe rules inv world.store.core) := by
  by_cases nothing : raws = []
  · subst nothing
    intro world rests
    simp only [mutate, HeaderStore.appendBatch, ↓reduceIte]
    rw [show world.store.core = core from rests]
    exact ⟨safe, fun _ => continues⟩
  · have shape :
        (HeaderStore.appendBatch rules.btc now token start raws :
          HeaderStore Backend Raw → _) =
          fun store =>
            store.withWriter token
              (appendBatchLocked rules.btc store.network
                store.checkpoint now start raws) := by
      funext store
      simp only [HeaderStore.appendBatch, nothing, ↓reduceIte]
    rw [shape]
    refine mutate_withWriter_safe
      (fun chain =>
        Continues rules chain (start + raws.length))
      closed safe ?_ ?_
    · rintro store rfl
      rw [show store.network = rules.network from safe.network,
        show store.checkpoint = rules.checkpoint from safe.checkpoint]
      exact closed.stable.appendBatch _ _ _
    rintro current store rfl
    have continues := continues.resolve_left
      (not_not.mpr (safe.writerToken.symm.trans current))
    rw [show store.network = rules.network from safe.network,
      show store.checkpoint = rules.checkpoint from safe.checkpoint]
    exact Holds.conseq (appendBatchLocked_holds rules clock continues nothing)
      (fun _ same => same)
      (fun _ _ reached =>
        ⟨closed.grows safe.chain reached.1, reached.2⟩)
      (fun _ _ grows => closed.grows safe.chain grows)

theorem prepend_safe
    {low high nowSecs : Nat}
    (closed : Closed rules inv)
    (safe : Safe rules inv core)
    (clock : rules.clocks nowSecs)
    (covers : core.inner.chain.Covers (low + raws.length) high)
    (ordered : low + raws.length ≤ high)
    (boundary : low % retargetInterval rules.btc rules.network = 0) :
    Holds (Rests core)
      (mutate (HeaderStore.prepend rules.btc nowSecs token low raws) :
        WorkerM σ Backend Raw (Except MutateError Unit))
      (fun _ world => Safe rules inv world.store.core)
      (fun _ world => Safe rules inv world.store.core) := by
  by_cases overflows : low + raws.length > u32Max
  · intro world rests
    simp only [mutate, HeaderStore.prepend, overflows, ↓reduceIte]
    rw [show world.store.core = core from rests]
    exact safe
  · have shape :
        (HeaderStore.prepend rules.btc nowSecs token low raws :
          HeaderStore Backend Raw → _) =
          fun store =>
            store.withWriter token
              (prependLocked rules.btc store.network store.checkpoint
                nowSecs low (low + raws.length) raws) := by
      funext store
      simp only [HeaderStore.prepend, overflows, ↓reduceIte]
    rw [shape]
    have lowered :
        ∀ inner : Inner Backend Raw,
          (∃ floorRaw,
            Lower rules core.inner.chain inner.chain low
              (low + raws.length) high
              (prependRange low (low + raws.length) raws floorRaw)
              nowSecs) →
            inv.chain inner.chain := by
      rintro inner ⟨floorRaw, lower⟩
      exact closed.write safe.chain (.inr ⟨_, _, _, _, _, lower⟩)
    refine Holds.conseq
      (mutate_withWriter_safe (fun _ => True) closed safe ?_ ?_)
      (fun _ rests => rests) (fun _ _ reached => reached.1)
      (fun _ _ reached => reached)
    · rintro store rfl
      rw [show store.network = rules.network from safe.network,
        show store.checkpoint = rules.checkpoint from safe.checkpoint]
      exact closed.stable.prepend _ _ _ _
    rintro - store rfl
    rw [show store.network = rules.network from safe.network,
      show store.checkpoint = rules.checkpoint from safe.checkpoint]
    refine Holds.conseq
      (prependLocked_holds rules clock covers ordered boundary)
      (fun _ same => same) (fun _ inner reached =>
        ⟨lowered inner reached, trivial⟩) ?_
    rintro _ inner (same | cleared | reached)
    · rw [show inner.chain = _ from same]
      exact safe.chain
    · rw [show inner.chain = _ from cleared]
      exact closed.empty safe.chain
    · exact lowered inner reached

theorem replaceBranch_safe
    {low high forkHeight : Nat}
    {branch : HeaderMap Raw}
    (closed : Closed rules inv)
    (safe : Safe rules inv core)
    (covers : core.inner.chain.Covers low high)
    (above : low ≤ forkHeight)
    (below : forkHeight ≤ high)
    (rows : branch.toList = runRows (forkHeight + 1) raws)
    (judged :
      rules.JudgedRows
        (core.inner.chain.retain (fun height _ => height ≤ forkHeight))
        (runRows (forkHeight + 1) raws)) :
    Holds (Rests core)
      (mutate (HeaderStore.replaceBranch rules.btc token forkHeight branch) :
        WorkerM σ Backend Raw (Except MutateError Unit))
      (fun _ world => Safe rules inv world.store.core)
      (fun _ world => Safe rules inv world.store.core) := by
  have switched :
      ∀ inner : Inner Backend Raw,
        (Stores (replaced core.inner.chain forkHeight branch) inner ∧
          ∀ row ∈ branch.toList,
            holdsCheckpoint rules.btc rules.checkpoint row.1 row.2 =
              true) →
          inv.chain inner.chain := by
    rintro inner ⟨stored, admitted⟩
    rw [show inner.chain = _ from stored]
    exact closed.grows safe.chain
      (grows_replaced rules covers above below rows judged admitted).1
  refine Holds.conseq
    (mutate_withWriter_safe (fun _ => True) closed safe ?_ ?_)
    (fun _ rests => rests) (fun _ _ reached => reached.1)
    (fun _ _ reached => reached)
  · rintro store rfl
    rw [show store.checkpoint = rules.checkpoint from safe.checkpoint]
    exact closed.stable.replaceBranch _ _
  rintro - store rfl
  rw [show store.checkpoint = rules.checkpoint from safe.checkpoint]
  refine Holds.conseq
    (replaceBranchLocked_holds rules.btc rules.checkpoint _ forkHeight
      branch)
    (fun _ same => same)
    (fun _ inner reached => ⟨switched inner reached, trivial⟩) ?_
  rintro _ inner (reached | ⟨cleared, -⟩)
  · exact switched inner reached
  · rw [show inner.chain = _ from cleared]
    exact closed.empty safe.chain

end Writing

end Bwk
