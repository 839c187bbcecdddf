import Bwk.HeaderReload

/-!
# Superseding a header worker

`with_writer` checks the token while it holds the lock, and `restart` moves
the token on without taking that lock. Here a call is split where another
thread can come in between: the check under the lock, the locked code, and
the notification sent once the lock is released.
-/

namespace Bwk

variable {Backend Raw : Type}

/-- A call a worker makes to change the chain. -/
inductive Mutator (Raw : Type) where
  | write (operation : WriterOp Raw)
  | wipe

namespace Mutator

/-- The code a call runs under the lock, unless it returns before taking it. -/
def underLock
    [PersistenceBackend Backend Nat Raw]
    (btc : Bitcoin Raw)
    (network : Network)
    (checkpoint : Option Checkpoint) :
    Mutator Raw → Option (Locked Backend Raw Unit)
  | .write (.append nowSecs height raw) =>
      (btc.deserialize raw).map (fun incoming =>
        appendLocked btc network checkpoint height raw incoming nowSecs)
  | .write (.appendBatch now start raws) =>
      if raws = [] then
        none
      else
        some (appendBatchLocked btc network checkpoint now start raws)
  | .write (.replaceBranch forkHeight branch) =>
      some (replaceBranchLocked btc checkpoint forkHeight branch)
  | .write (.prepend nowSecs low raws) =>
      if low + raws.length > u32Max then
        none
      else
        some
          (prependLocked btc network checkpoint nowSecs low
            (low + raws.length) raws)
  | .wipe => some clearInner

/-- Whether a call that went through notifies the listeners. -/
def announces : Mutator Raw → Bool
  | .write _ => true
  | .wipe => false

end Mutator

/-- Where a worker stands with respect to the lock. -/
inductive Phase (Backend Raw : Type) where
  | away
  /-- The lock is held and the token was found to be its own. -/
  | holding (body : Locked Backend Raw Unit) (announces : Bool)
  /-- The lock is released and the listeners are about to be notified. -/
  | notifying

/-- A header worker, known by the token it was spawned under. -/
structure Worker (Backend Raw : Type) where
  token : Nat
  phase : Phase Backend Raw

/-- A store together with the workers spawned on it so far. -/
structure Takeover (Backend Raw : Type) where
  store : HeaderStore Backend Raw
  workers : List (Worker Backend Raw)
  /-- The worker that holds the lock. -/
  locked : Option Nat
  /-- A worker panicked while it held the lock. -/
  poisoned : Bool
  /-- Chain notifications sent so far. -/
  ticks : Nat

/-- One step of a worker, or of a thread that stops or restarts the store. -/
inductive TakeoverStep (Raw : Type) where
  | call (worker : Nat) (mutator : Mutator Raw)
  | work (worker : Nat)
  | notify (worker : Nat)
  | stop
  | resume
  | bump
  | spawn

def TakeoverStep.worker : TakeoverStep Raw → Option Nat
  | .call worker _ | .work worker | .notify worker => some worker
  | .stop | .resume | .bump | .spawn => none

/-- `stopped.store(false)`, the first half of a restart. -/
def HeaderStore.resume
    (store : HeaderStore Backend Raw) : HeaderStore Backend Raw :=
  { store with stopped := false }

/-- `writer_token.fetch_add(1)`, the second half of a restart. -/
def HeaderStore.bump
    (store : HeaderStore Backend Raw) : HeaderStore Backend Raw :=
  { store with writerToken := store.writerToken + 1 }

namespace Takeover

/-- A store no worker was spawned on. -/
def opened (store : HeaderStore Backend Raw) : Takeover Backend Raw where
  store := store
  workers := []
  locked := none
  poisoned := false
  ticks := 0

def moved
    (state : Takeover Backend Raw)
    (worker : Nat)
    (phase : Phase Backend Raw) : Takeover Backend Raw :=
  { state with
    workers :=
      state.workers.modify worker (fun moving => ⟨moving.token, phase⟩) }

section Step

variable [PersistenceBackend Backend Nat Raw]

/-- Take the lock and check the token; a free lock alone can be taken. -/
def call
    (btc : Bitcoin Raw)
    (state : Takeover Backend Raw)
    (worker : Nat)
    (mutator : Mutator Raw) : Takeover Backend Raw :=
  match state.workers[worker]?, state.locked with
  | some ⟨token, .away⟩, none =>
      match mutator.underLock btc state.store.network
        state.store.checkpoint with
      | none => state
      | some body =>
          if state.poisoned ∨ state.store.writerToken ≠ token then
            state
          else
            { state.moved worker (.holding body mutator.announces) with
              locked := some worker }
  | _, _ => state

/-- Run the locked code and release the lock. -/
def work
    (state : Takeover Backend Raw)
    (worker : Nat) : Takeover Backend Raw :=
  match state.workers[worker]? with
  | some ⟨_, .holding body announces⟩ =>
      match body state.store.inner with
      | .ok () inner =>
          { state.moved worker (if announces then .notifying else .away) with
            store := state.store.release inner
            locked := none }
      | .error reason inner =>
          -- `hold_checkpoint` notifies before the lock is released.
          { state.moved worker .away with
            store := state.store.release inner
            locked := none
            poisoned := state.poisoned || reason == .panic
            ticks :=
              if reason = .error .checkpoint then
                state.ticks + 1
              else
                state.ticks }
  | _ => state

/-- Notify the listeners of a change that went through. -/
def notify
    (state : Takeover Backend Raw)
    (worker : Nat) : Takeover Backend Raw :=
  match state.workers[worker]? with
  | some ⟨_, .notifying⟩ =>
      { state.moved worker .away with ticks := state.ticks + 1 }
  | _ => state

/-- Take one step; a step that is not enabled changes nothing. -/
def step
    (btc : Bitcoin Raw)
    (state : Takeover Backend Raw) :
    TakeoverStep Raw → Takeover Backend Raw
  | .call worker mutator => state.call btc worker mutator
  | .work worker => state.work worker
  | .notify worker => state.notify worker
  | .stop => { state with store := state.store.stop }
  | .resume => { state with store := state.store.resume }
  | .bump => { state with store := state.store.bump }
  | .spawn =>
      { state with
        workers := state.workers ++ [⟨state.store.writerToken, .away⟩] }

def run
    (btc : Bitcoin Raw)
    (state : Takeover Backend Raw)
    (steps : List (TakeoverStep Raw)) : Takeover Backend Raw :=
  steps.foldl (step btc) state

end Step

section Uncut

variable [PersistenceBackend Backend Nat Raw]
variable {state : Takeover Backend Raw} {worker token : Nat}

end Uncut

/-- The store was handed over to a later worker. -/
def Superseded
    (state : Takeover Backend Raw)
    (worker : Nat) : Prop :=
  ∃ superseded, state.workers[worker]? = some superseded ∧
    superseded.token < state.store.writerToken

/-- Chain, persisted rows and validation state stay, and nobody is told. -/
structure Quiet (before after : Takeover Backend Raw) : Prop where
  inner : after.store.inner = before.store.inner
  ticks : after.ticks = before.ticks

/-- No step of a run by a worker superseded by then shows. -/
def Inert
    [PersistenceBackend Backend Nat Raw]
    (btc : Bitcoin Raw) :
    Takeover Backend Raw → List (TakeoverStep Raw) → Prop
  | _, [] => True
  | state, next :: rest =>
      (∀ worker, next.worker = some worker → state.Superseded worker →
        Quiet state (state.step btc next)) ∧
        Inert btc (state.step btc next) rest

end Takeover

/-- What is left of a call neither changes anything nor notifies anyone. -/
def Phase.Harmless (inner : Inner Backend Raw) : Phase Backend Raw → Prop
  | .away => True
  | .holding body announces =>
      match body inner with
      | .ok () after => after = inner ∧ announces = false
      | .error reason after => after = inner ∧ reason ≠ .error .checkpoint
  | .notifying => False

namespace Takeover

/-- No worker is in the middle of a call that shows. -/
def Settled (state : Takeover Backend Raw) : Prop :=
  ∀ worker ∈ state.workers, worker.phase.Harmless state.store.inner

/-- The token is moved on in settled states only. -/
def BumpsSettled
    [PersistenceBackend Backend Nat Raw]
    (btc : Bitcoin Raw) :
    Takeover Backend Raw → List (TakeoverStep Raw) → Prop
  | _, [] => True
  | state, next :: rest =>
      (next = .bump → state.Settled) ∧
        BumpsSettled btc (state.step btc next) rest

/-- What holds of the lock and of the tokens whatever happens. -/
structure Coherent (state : Takeover Backend Raw) : Prop where
  issued :
    ∀ (index : Nat) (worker : Worker Backend Raw),
      state.workers[index]? = some worker →
      worker.token ≤ state.store.writerToken
  exclusive :
    ∀ (index token : Nat) (body : Locked Backend Raw Unit)
      (announces : Bool),
      state.workers[index]? = some ⟨token, .holding body announces⟩ →
      state.locked = some index

/-- No call of a superseded worker is left in the middle. -/
def Retired (state : Takeover Backend Raw) : Prop :=
  ∀ (index : Nat) (worker : Worker Backend Raw),
    state.workers[index]? = some worker →
    worker.token < state.store.writerToken →
    worker.phase.Harmless state.store.inner

/-- A call of a superseded worker is about to show. -/
def Slipped
    (state : Takeover Backend Raw)
    (index : Nat) : Prop :=
  ∃ worker, state.workers[index]? = some worker ∧
    worker.token < state.store.writerToken ∧
    ¬ worker.phase.Harmless state.store.inner

theorem getElem?_moved
    (state : Takeover Backend Raw)
    (worker index : Nat)
    (phase : Phase Backend Raw) :
    (state.moved worker phase).workers[index]? =
      if worker = index then
        state.workers[index]?.map (fun moving => ⟨moving.token, phase⟩)
      else
        state.workers[index]? := by
  simp only [moved, List.getElem?_modify]
  split <;> simp

variable {index : Nat} {body : Locked Backend Raw Unit}
variable {phase : Phase Backend Raw}

variable {state : Takeover Backend Raw}

theorem moved_cases
    {mover index : Nat}
    {found worker : Worker Backend Raw}
    (moving : state.workers[mover]? = some found)
    (present : (state.moved mover phase).workers[index]? = some worker) :
    (index = mover ∧ worker = ⟨found.token, phase⟩) ∨
      (index ≠ mover ∧ state.workers[index]? = some worker) := by
  rw [getElem?_moved] at present
  by_cases same : mover = index
  · subst same
    rw [if_pos rfl, moving] at present
    exact .inl ⟨rfl, (Option.some.inj present).symm⟩
  · rw [if_neg same] at present
    exact .inr ⟨Ne.symm same, present⟩

theorem spawned_cases
    {workers : List (Worker Backend Raw)}
    {worker fresh : Worker Backend Raw}
    (present : (workers ++ [fresh])[index]? = some worker) :
    workers[index]? = some worker ∨ worker = fresh := by
  rw [List.getElem?_append] at present
  split at present
  · exact .inl present
  · obtain ⟨_, same⟩ := List.getElem?_eq_some_iff.mp present
    right
    simpa using same.symm

theorem work_holding
    {worker token : Nat}
    {announces : Bool}
    (found :
      state.workers[worker]? = some ⟨token, .holding body announces⟩) :
    ∃ inner phase poisoned ticks,
      state.work worker =
        { state.moved worker phase with
          store := state.store.release inner
          locked := none
          poisoned := poisoned
          ticks := ticks } ∧
      (phase = .away ∨ phase = .notifying) ∧
      ((Phase.holding body announces).Harmless state.store.inner ↔
        inner = state.store.inner ∧ ticks = state.ticks ∧
          phase = .away) := by
  simp only [work, found, Phase.Harmless]
  cases outcome : body state.store.inner with
  | ok value inner =>
      cases announces with
      | true =>
          exact ⟨inner, .notifying, state.poisoned, state.ticks, rfl,
            .inr rfl, by simp⟩
      | false =>
          exact ⟨inner, .away, state.poisoned, state.ticks, rfl, .inl rfl,
            by simp⟩
  | error reason inner =>
      by_cases refused : reason = .error .checkpoint
      · exact ⟨inner, .away, state.poisoned || reason == .panic,
          state.ticks + 1, by simp [refused], .inl rfl, by simp [refused]⟩
      · exact ⟨inner, .away, state.poisoned || reason == .panic,
          state.ticks, by simp [refused], .inl rfl, by simp [refused]⟩

theorem work_cases
    (state : Takeover Backend Raw)
    (worker : Nat) :
    (state.work worker = state ∧
        ∀ token body announces,
          state.workers[worker]? ≠
            some ⟨token, .holding body announces⟩) ∨
      ∃ token body announces,
        state.workers[worker]? =
          some ⟨token, .holding body announces⟩ := by
  unfold work
  split
  · next token body announces found =>
      exact .inr ⟨token, body, announces, found⟩
  · next otherwise =>
      exact .inl ⟨rfl, otherwise⟩

theorem notify_cases
    (state : Takeover Backend Raw)
    (worker : Nat) :
    state.notify worker = state ∨
      ∃ token,
        state.workers[worker]? = some ⟨token, .notifying⟩ ∧
        state.notify worker =
          { state.moved worker .away with ticks := state.ticks + 1 } := by
  unfold notify
  split
  · next token found =>
      exact .inr ⟨token, found, rfl⟩
  · exact .inl rfl

theorem Coherent.moved
    {state after : Takeover Backend Raw}
    {mover : Nat}
    {found : Worker Backend Raw}
    (coherent : state.Coherent)
    (moving : state.workers[mover]? = some found)
    (workers : after.workers = (state.moved mover phase).workers)
    (token : after.store.writerToken = state.store.writerToken)
    (taken :
      ∀ body announces, phase = .holding body announces →
        after.locked = some mover)
    (kept :
      ∀ index, index ≠ mover → state.locked = some index →
        after.locked = some index) :
    after.Coherent where
  issued := by
    intro index worker present
    rw [workers] at present
    rw [token]
    rcases moved_cases moving present with ⟨-, rfl⟩ | ⟨-, stood⟩
    · exact coherent.issued mover found moving
    · exact coherent.issued index worker stood
  exclusive := by
    intro index token body announces present
    rw [workers] at present
    rcases moved_cases moving present with ⟨rfl, same⟩ | ⟨other, stood⟩
    · injection same with _ samePhase
      exact taken body announces samePhase.symm
    · exact kept index other
        (coherent.exclusive index token body announces stood)

theorem Slipped.superseded
    (slipped : state.Slipped index) :
    state.Superseded index := by
  obtain ⟨worker, found, old, -⟩ := slipped
  exact ⟨worker, found, old⟩

theorem notify_loud
    {index token : Nat}
    (waits : state.workers[index]? = some ⟨token, .notifying⟩) :
    ¬ Quiet state (state.notify index) := by
  intro quiet
  have ticks := quiet.ticks
  simp [notify, waits] at ticks

theorem not_holding_work
    {index token : Nat}
    {announces : Bool} :
    (state.work index).workers[index]? ≠
      some ⟨token, .holding body announces⟩ := by
  intro holds
  rcases work_cases state index with
    ⟨same, idle⟩ | ⟨workToken, workBody, workAnnounces, found⟩
  · rw [same] at holds
    exact idle token body announces holds
  · obtain ⟨inner, phase, poisoned, ticks, after, gone, -⟩ :=
      work_holding found
    rw [after] at holds
    rcases moved_cases found holds with ⟨-, same⟩ | ⟨other, -⟩
    · rcases gone with rfl | rfl <;> cases same
    · exact other rfl

section Steps

variable [PersistenceBackend Backend Nat Raw]
variable {btc : Bitcoin Raw} {state : Takeover Backend Raw}

theorem call_cases
    (btc : Bitcoin Raw)
    (state : Takeover Backend Raw)
    (worker : Nat)
    (mutator : Mutator Raw) :
    state.call btc worker mutator = state ∨
      ∃ body,
        state.workers[worker]? = some ⟨state.store.writerToken, .away⟩ ∧
        state.locked = none ∧
        state.call btc worker mutator =
          { state.moved worker (.holding body mutator.announces) with
            locked := some worker } := by
  unfold call
  split
  case h_1 token found free =>
    split
    · exact .inl rfl
    · next body _ =>
        split
        · exact .inl rfl
        · next entered =>
            have current : state.store.writerToken = token := by
              by_contra other
              exact entered (.inr other)
            rw [current]
            exact .inr ⟨body, found, free, rfl⟩
  case h_2 =>
    exact .inl rfl

theorem coherent_step
    (coherent : state.Coherent)
    (next : TakeoverStep Raw) :
    (state.step btc next).Coherent := by
  cases next with
  | call worker mutator =>
      change (state.call btc worker mutator).Coherent
      rcases call_cases btc state worker mutator with
        same | ⟨body, found, free, after⟩
      · rw [same]
        exact coherent
      · rw [after]
        refine coherent.moved found rfl rfl (fun _ _ _ => rfl) ?_
        intro index other holds
        rw [free] at holds
        cases holds
  | work worker =>
      change (state.work worker).Coherent
      rcases work_cases state worker with
        ⟨same, -⟩ | ⟨token, body, announces, found⟩
      · rw [same]
        exact coherent
      · obtain ⟨inner, phase, poisoned, ticks, after, gone, -⟩ :=
          work_holding found
        rw [after]
        refine coherent.moved found rfl rfl ?_ ?_
        · intro body announces holding
          rcases gone with rfl | rfl <;> cases holding
        · intro index other holds
          rw [coherent.exclusive worker token body announces found] at holds
          exact absurd (Option.some.inj holds).symm other
  | notify worker =>
      change (state.notify worker).Coherent
      rcases notify_cases state worker with same | ⟨token, found, after⟩
      · rw [same]
        exact coherent
      · rw [after]
        exact coherent.moved found rfl rfl nofun (fun _ _ holds => holds)
  | stop | resume =>
      exact ⟨coherent.issued, coherent.exclusive⟩
  | bump =>
      refine ⟨?_, coherent.exclusive⟩
      intro index worker present
      exact (coherent.issued index worker present).trans (Nat.le_succ _)
  | spawn =>
      refine ⟨?_, ?_⟩
      · intro index worker present
        rcases spawned_cases present with stood | ⟨rfl⟩
        · exact coherent.issued index worker stood
        · exact le_rfl
      · intro index token body announces present
        rcases spawned_cases present with stood | fresh
        · exact coherent.exclusive index token body announces stood
        · cases fresh

theorem coherent_run
    (coherent : state.Coherent)
    (steps : List (TakeoverStep Raw)) :
    (state.run btc steps).Coherent :=
  List.foldlRecOn steps (step btc) coherent
    (fun _ before next _ => coherent_step before next)

theorem retired_step
    (coherent : state.Coherent)
    (retired : state.Retired)
    (next : TakeoverStep Raw)
    (settled : next = .bump → state.Settled) :
    (state.step btc next).Retired ∧
      ∀ worker, next.worker = some worker → state.Superseded worker →
        Quiet state (state.step btc next) := by
  cases next with
  | call worker mutator =>
      change (state.call btc worker mutator).Retired ∧
        ∀ _, _ → _ → Quiet state (state.call btc worker mutator)
      rcases call_cases btc state worker mutator with
        same | ⟨body, found, free, after⟩
      · rw [same]
        exact ⟨retired, fun _ _ _ => ⟨rfl, rfl⟩⟩
      · rw [after]
        refine ⟨?_, fun _ _ _ => ⟨rfl, rfl⟩⟩
        intro index other present old
        rcases moved_cases found present with ⟨-, rfl⟩ | ⟨-, stood⟩
        · exact absurd old (lt_irrefl _)
        · exact retired index other stood old
  | work worker =>
      change (state.work worker).Retired ∧
        ∀ _, _ → _ → Quiet state (state.work worker)
      rcases work_cases state worker with
        ⟨same, -⟩ | ⟨token, body, announces, found⟩
      · rw [same]
        exact ⟨retired, fun _ _ _ => ⟨rfl, rfl⟩⟩
      · obtain ⟨inner, phase, poisoned, ticks, after, gone, shows⟩ :=
          work_holding found
        rw [after]
        refine ⟨?_, ?_⟩
        · intro index other present old
          rcases moved_cases found present with ⟨-, rfl⟩ | ⟨away, stood⟩
          · obtain ⟨-, -, rfl⟩ := shows.mp (retired worker _ found old)
            trivial
          · have harmless := retired index other stood old
            obtain ⟨otherToken, otherPhase⟩ := other
            cases otherPhase with
            | away =>
                trivial
            | holding otherBody otherAnnounces =>
                -- The lock is held by one worker only.
                have mine := coherent.exclusive worker _ _ _ found
                have theirs := coherent.exclusive index _ _ _ stood
                rw [mine] at theirs
                exact absurd (Option.some.inj theirs).symm away
            | notifying =>
                exact harmless.elim
        · intro _ mover superseded
          cases mover
          obtain ⟨_, present, old⟩ := superseded
          rw [found] at present
          cases present
          obtain ⟨sameInner, sameTicks, -⟩ :=
            shows.mp (retired worker _ found old)
          exact ⟨sameInner, sameTicks⟩
  | notify worker =>
      change (state.notify worker).Retired ∧
        ∀ _, _ → _ → Quiet state (state.notify worker)
      rcases notify_cases state worker with same | ⟨token, found, after⟩
      · rw [same]
        exact ⟨retired, fun _ _ _ => ⟨rfl, rfl⟩⟩
      · rw [after]
        refine ⟨?_, ?_⟩
        · intro index other present old
          rcases moved_cases found present with ⟨-, rfl⟩ | ⟨-, stood⟩
          · trivial
          · exact retired index other stood old
        · intro _ mover superseded
          cases mover
          obtain ⟨_, present, old⟩ := superseded
          rw [found] at present
          cases present
          exact (retired worker _ found old).elim
  | stop =>
      exact ⟨retired, nofun⟩
  | resume =>
      exact ⟨retired, nofun⟩
  | bump =>
      refine ⟨?_, nofun⟩
      intro index worker present _
      exact settled rfl worker (List.mem_of_getElem? present)
  | spawn =>
      refine ⟨?_, nofun⟩
      intro index worker present old
      rcases spawned_cases present with stood | fresh
      · exact retired index worker stood old
      · rw [fresh] at old
        exact absurd old (lt_irrefl _)

theorem inert_of_bumpsSettled
    (coherent : state.Coherent)
    (retired : state.Retired)
    (steps : List (TakeoverStep Raw))
    (settled : BumpsSettled btc state steps) :
    Inert btc state steps := by
  induction steps generalizing state with
  | nil =>
      trivial
  | cons next rest inductionHypothesis =>
      obtain ⟨still, quiet⟩ :=
        retired_step coherent retired next settled.1
      exact ⟨quiet,
        inductionHypothesis (coherent_step coherent next) still settled.2⟩

theorem slipped_step
    (coherent : state.Coherent)
    (slipped : state.Slipped index)
    (next : TakeoverStep Raw) :
    (next.worker = some index ∧ ¬ Quiet state (state.step btc next)) ∨
      (state.step btc next).Slipped index := by
  obtain ⟨⟨token, phase⟩, found, old, shows⟩ := slipped
  cases next with
  | call worker mutator =>
      right
      change (state.call btc worker mutator).Slipped index
      rcases call_cases btc state worker mutator with
        same | ⟨body, caller, free, after⟩
      · rw [same]
        exact ⟨_, found, old, shows⟩
      · have other : worker ≠ index := by
          rintro rfl
          rw [found] at caller
          cases caller
          exact shows trivial
        rw [after]
        refine ⟨⟨token, phase⟩, ?_, old, shows⟩
        change (state.moved worker _).workers[index]? = _
        rw [getElem?_moved, if_neg other, found]
  | work worker =>
      change (_ ∧ ¬ Quiet state (state.work worker)) ∨
        (state.work worker).Slipped index
      rcases work_cases state worker with
        ⟨same, -⟩ | ⟨workToken, body, announces, holds⟩
      · right
        rw [same]
        exact ⟨_, found, old, shows⟩
      · obtain ⟨inner, after, poisoned, ticks, worked, gone, harmless⟩ :=
          work_holding holds
        rw [worked]
        by_cases mine : worker = index
        · subst mine
          rw [found] at holds
          cases holds
          by_cases quiet : inner = state.store.inner ∧ ticks = state.ticks
          · right
            have announced : after = .notifying := by
              refine gone.resolve_left ?_
              intro away
              exact shows (harmless.mpr ⟨quiet.1, quiet.2, away⟩)
            refine ⟨⟨token, after⟩, ?_, old, ?_⟩
            · change (state.moved worker _).workers[worker]? = _
              rw [getElem?_moved, if_pos rfl, found]
              rfl
            · rw [announced]
              exact id
          · left
            exact ⟨rfl, fun same => quiet ⟨same.inner, same.ticks⟩⟩
        · right
          refine ⟨⟨token, phase⟩, ?_, old, ?_⟩
          · change (state.moved worker _).workers[index]? = _
            rw [getElem?_moved, if_neg mine, found]
          · cases phase with
            | away =>
                exact absurd trivial shows
            | holding otherBody otherAnnounces =>
                have theirs := coherent.exclusive worker _ _ _ holds
                rw [coherent.exclusive index _ _ _ found] at theirs
                exact absurd (Option.some.inj theirs).symm mine
            | notifying =>
                exact id
  | notify worker =>
      change (_ ∧ ¬ Quiet state (state.notify worker)) ∨
        (state.notify worker).Slipped index
      rcases notify_cases state worker with same | ⟨other, waits, after⟩
      · right
        rw [same]
        exact ⟨_, found, old, shows⟩
      · rw [after]
        by_cases mine : worker = index
        · left
          exact ⟨congrArg some mine,
            fun same => Nat.succ_ne_self _ same.ticks⟩
        · right
          refine ⟨⟨token, phase⟩, ?_, old, shows⟩
          change (state.moved worker _).workers[index]? = _
          rw [getElem?_moved, if_neg mine, found]
  | stop | resume =>
      exact .inr ⟨_, found, old, shows⟩
  | bump =>
      exact .inr ⟨_, found, old.trans (Nat.lt_succ_self _), shows⟩
  | spawn =>
      right
      refine ⟨_, ?_, old, shows⟩
      change (state.workers ++ [_])[index]? = _
      rw [List.getElem?_append_left (List.getElem?_eq_some_iff.mp found).1,
        found]

theorem slipped_run
    (coherent : state.Coherent)
    (slipped : state.Slipped index)
    (steps : List (TakeoverStep Raw))
    (inert : Inert btc state steps) :
    (state.run btc steps).Slipped index := by
  induction steps generalizing state with
  | nil =>
      exact slipped
  | cons next rest inductionHypothesis =>
      rcases slipped_step coherent slipped next with
        ⟨mover, loud⟩ | still
      · exact absurd (inert.1 index mover slipped.superseded) loud
      · exact inductionHypothesis (coherent_step coherent next) still
          inert.2

def finish (index : Nat) : List (TakeoverStep Raw) :=
  [.work index, .notify index]

theorem slipped_finish
    (coherent : state.Coherent)
    (slipped : state.Slipped index) :
    ¬ Inert btc state (finish index) := by
  intro inert
  rcases slipped_step coherent slipped (.work index) with
    ⟨mover, loud⟩ | still
  · exact loud (inert.1 index mover slipped.superseded)
  · have superseded := still.superseded
    obtain ⟨⟨token, phase⟩, found, -, shows⟩ := still
    cases phase with
    | away =>
        exact shows trivial
    | holding body announces =>
        exact not_holding_work found
    | notifying =>
        exact notify_loud found (inert.2.1 index rfl superseded)

theorem inert_append
    (earlier later : List (TakeoverStep Raw)) :
    Inert btc state (earlier ++ later) ↔
      Inert btc state earlier ∧ Inert btc (state.run btc earlier) later := by
  induction earlier generalizing state with
  | nil =>
      simp [Inert, run]
  | cons next rest inductionHypothesis =>
      simp only [List.cons_append, Inert, inductionHypothesis, run,
        List.foldl_cons, and_assoc]

theorem bumpsSettled_of_inert
    (coherent : state.Coherent)
    (steps : List (TakeoverStep Raw))
    (inert :
      ∀ later : List (TakeoverStep Raw), .bump ∉ later →
        Inert btc state (steps ++ later)) :
    BumpsSettled btc state steps := by
  induction steps generalizing state with
  | nil =>
      trivial
  | cons next rest inductionHypothesis =>
      refine ⟨?_, ?_⟩
      · rintro rfl worker member
        by_contra shows
        obtain ⟨index, found⟩ := List.mem_iff_getElem?.mp member
        have slipped : (state.step btc .bump).Slipped index :=
          ⟨worker, found,
            Nat.lt_succ_of_le (coherent.issued index worker found), shows⟩
        have coherentNext : (state.step btc .bump).Coherent :=
          coherent_step coherent .bump
        have continued := inert (finish index) (by simp [finish])
        obtain ⟨within, after⟩ :=
          (inert_append rest (finish index)).mp continued.2
        exact slipped_finish (coherent_run coherentNext rest)
          (slipped_run coherentNext slipped rest within) after
      · refine inductionHypothesis (coherent_step coherent next) ?_
        intro later noBump
        exact (inert later noBump).2

theorem bumpsSettled_append
    (steps : List (TakeoverStep Raw))
    {later : List (TakeoverStep Raw)}
    (noBump : .bump ∉ later)
    (settled : BumpsSettled btc state steps) :
    BumpsSettled btc state (steps ++ later) := by
  induction steps generalizing state with
  | nil =>
      clear settled
      induction later generalizing state with
      | nil =>
          trivial
      | cons next rest inductionHypothesis =>
          refine ⟨?_, inductionHypothesis (List.not_mem_of_not_mem_cons noBump)⟩
          rintro rfl
          exact absurd List.mem_cons_self noBump
  | cons next rest inductionHypothesis =>
      exact ⟨settled.1, inductionHypothesis settled.2⟩

end Steps

theorem coherent_opened (store : HeaderStore Backend Raw) :
    (opened store).Coherent := by
  refine ⟨?_, ?_⟩
  · intro index worker present
    cases present
  · intro index token body announces present
    cases present

theorem retired_opened (store : HeaderStore Backend Raw) :
    (opened store).Retired := by
  intro index worker present
  cases present

/--
Whatever the workers call and whenever the store is stopped and restarted,
superseded workers stay inert exactly when no restart moves the token on while
a worker that passed its check still has something to change or to notify.
-/
theorem superseded_inert_iff
    [PersistenceBackend Backend Nat Raw]
    (btc : Bitcoin Raw)
    (store : HeaderStore Backend Raw)
    (steps : List (TakeoverStep Raw)) :
    (∀ later : List (TakeoverStep Raw), .bump ∉ later →
        Inert btc (opened store) (steps ++ later)) ↔
      BumpsSettled btc (opened store) steps := by
  constructor
  · intro inert
    exact bumpsSettled_of_inert (coherent_opened store) steps inert
  · intro settled later noBump
    exact inert_of_bumpsSettled (coherent_opened store)
      (retired_opened store) (steps ++ later)
      (bumpsSettled_append steps noBump settled)

/-- A sync under the first token, cut by a restart right after its check. -/
def splitSync : List (TakeoverStep Header) :=
  [.spawn, .call 0 (.write (.appendBatch (fun _ => 0) 0 [⟨0, 0, 0, 50, 0, 0⟩])),
    .stop, .resume, .bump, .work 0]

/--
A restart between the check and the insert of a sync lets the superseded
worker store its header under the new token.
-/
theorem superseded_worker_writes :
    ¬ Inert Bitcoin.sample
        (opened
          (HeaderStore.withCheckpoint Bitcoin.sample 0 .regtest none
            (⟨∅, []⟩ : RowBackend Nat Header)))
        splitSync := by
  intro inert
  have quiet :=
    inert.2.2.2.2.2.1 0 rfl ⟨_, rfl, by decide +kernel⟩
  have stored := congrArg (fun inner => inner.chain[0]?) quiet.inner
  revert stored
  decide +kernel

end Takeover

end Bwk
