import Bwk.HeaderStore

namespace Bwk

/-!
# The header worker

The background worker of `electrum/src/header_store.rs`: start-up, initial
sync, downward extension, tip following and reorganisation.  The server, the
clock and the other threads of the process are an environment the worker talks
to through its channels; nothing is assumed of it, so a run against every
environment is a run against every server.

The loops of the worker end only when the environment lets them, so each takes
a bound on its iterations.  Running out of it is a way to stop looking at a
run, never a result.  Logging, progress events and notifications are left out:
nothing the worker does depends on them.
-/

/-- What the worker sends to its client. -/
inductive HeaderRequest where
  | subscribe
  | getHeaders (start count : Nat)
  deriving Repr, DecidableEq

/-- Errors the client passes on; only header fetches are tagged. -/
inductive HeaderError where
  | getHeaders (start : UInt32)
  | getHeadersDecode (start : UInt32)
  | other
  deriving Repr, DecidableEq

/-- What the client hands to the worker. -/
inductive HeaderResponse (Raw : Type) where
  | tip (height : UInt32) (raw : Raw)
  | header (height : UInt32) (raw : Raw)
  | batch (start : UInt32) (raws : List Raw)
  | stopped
  | woken
  | error (reason : HeaderError)

/-- The outcomes of waiting on the response channel. -/
inductive RecvEvent (Raw : Type) where
  | response (response : HeaderResponse Raw)
  | timeout
  | disconnected

/-- What other threads do to the store while the worker waits. -/
inductive Outside where
  | stop
  | requestExtendDown (height : UInt32)

/-- Everything the worker meets outside the store. -/
structure Env (σ Raw : Type) where
  /-- Queue a request; `none` when the channel is closed. -/
  send : HeaderRequest → σ → Option σ
  /-- Wait for the next response. -/
  recv : σ → RecvEvent Raw × σ
  /-- What other threads did during that wait. -/
  outside : σ → List Outside
  /-- The readings of the clock made before the next wait. -/
  clock : σ → Nat → Nat

/-- The worker's whole surroundings. -/
structure World (σ Backend Raw : Type) where
  store : HeaderStore Backend Raw
  env : σ
  deferred : List (UInt32 × Raw)

/-- How a run ends other than by returning. -/
inductive Halt where
  | panic
  | outOfFuel
  deriving Repr, DecidableEq

/-- The worker's computations. -/
abbrev WorkerM (σ Backend Raw : Type) :=
  EStateM Halt (World σ Backend Raw)

/-- Headers fetched per step of the walk back to a fork. -/
def reorgWalkChunk : Nat := 20

/-- Upper bound on the deferred tip queue. -/
def maxDeferred : Nat := 4096

/-- How waiting for one batch of headers ends. -/
inductive RequestHeadersOutcome (Raw : Type) where
  | batch (raws : List Raw)
  | failed
  | timeout
  | cancelled

section Channel

variable {σ Backend Raw : Type} [PersistenceBackend Backend Nat Raw]

/-- One action of another thread. -/
def Outside.apply
    (store : HeaderStore Backend Raw) :
    Outside → HeaderStore Backend Raw
  | .stop => store.stop
  | .requestExtendDown height => store.requestExtendDown height.toNat

/-- `left + right` on heights. -/
def addU32 (left right : Nat) : WorkerM σ Backend Raw Nat :=
  if left + right ≤ u32Max then pure (left + right) else throw .panic

/-- Park a header, dropping it when the queue is full. -/
def pushDeferred (item : UInt32 × Raw) : WorkerM σ Backend Raw Unit :=
  modify (fun world =>
    if world.deferred.length ≥ maxDeferred then
      world
    else
      { world with deferred := world.deferred ++ [item] })

/-- Take the oldest parked header. -/
def popDeferred : WorkerM σ Backend Raw (Option (UInt32 × Raw)) := do
  let world ← get
  match world.deferred with
  | [] => pure none
  | item :: rest => do
      set { world with deferred := rest }
      pure (some item)

/-- Send a request; false when the channel is closed. -/
def send (env : Env σ Raw) (request : HeaderRequest) :
    WorkerM σ Backend Raw Bool := do
  let world ← get
  match env.send request world.env with
  | none => pure false
  | some next => do
      set { world with env := next }
      pure true

/-- Wait for the next response. -/
def recv (env : Env σ Raw) : WorkerM σ Backend Raw (RecvEvent Raw) := do
  let world ← get
  let (event, next) := env.recv world.env
  set
    { world with
      env := next
      store := (env.outside world.env).foldl Outside.apply world.store }
  pure event

/-- Stopped, or superseded by a later worker. -/
def isStale (token : Nat) : WorkerM σ Backend Raw Bool := do
  let world ← get
  pure (world.store.stopped || world.store.writerToken != token)

/-- Run a store operation; its `Err` is a value, its panic ends the thread. -/
def mutate
    (operation :
      HeaderStore Backend Raw →
        Except Abort Unit × HeaderStore Backend Raw) :
    WorkerM σ Backend Raw (Except MutateError Unit) :=
  fun world =>
    match operation world.store with
    | (.ok (), store) => .ok (.ok ()) { world with store := store }
    | (.error (.error reason), store) =>
        .ok (.error reason) { world with store := store }
    | (.error .panic, store) => .error .panic { world with store := store }

/-- Run a store operation that reports nothing. -/
def updateStore
    (operation : HeaderStore Backend Raw → HeaderStore Backend Raw) :
    WorkerM σ Backend Raw Unit :=
  modify (fun world => { world with store := operation world.store })

/-- Wait for the answer to a `GetHeaders` at `start`. -/
def receiveHeaders
    (env : Env σ Raw)
    (start : Nat) :
    Nat → WorkerM σ Backend Raw (RequestHeadersOutcome Raw)
  | 0 => throw .outOfFuel
  | fuel + 1 => do
      match ← recv env with
      | .timeout => pure .timeout
      | .disconnected => pure .cancelled
      | .response (.batch answered raws) =>
          if answered.toNat = start then
            pure (.batch raws)
          else
            receiveHeaders env start fuel
      | .response (.tip height raw) | .response (.header height raw) => do
          pushDeferred (height, raw)
          receiveHeaders env start fuel
      | .response (.error (.getHeaders answered))
      | .response (.error (.getHeadersDecode answered)) =>
          if answered.toNat = start then
            pure .failed
          else
            receiveHeaders env start fuel
      | .response (.error .other) => receiveHeaders env start fuel
      | .response .stopped => pure .cancelled
      | .response .woken => receiveHeaders env start fuel

/-- Fetch headers once. -/
def requestHeaders
    (env : Env σ Raw)
    (fuel start count : Nat) :
    WorkerM σ Backend Raw (Option (List Raw)) := do
  if ← send env (.getHeaders start count) then
    match ← receiveHeaders env start fuel with
    | .batch raws => pure (some raws)
    | _ => pure none
  else
    pure none

/-- Fetch headers, asking again after a failure or an empty answer. -/
def requestInitialHeaders
    (env : Env σ Raw)
    (token fuel start count : Nat) :
    Nat → Bool → WorkerM σ Backend Raw (Option (List Raw))
  | 0, _ => throw .outOfFuel
  | attempts + 1, sending => do
      if ← isStale token then
        return none
      if sending then
        if !(← send env (.getHeaders start count)) then
          return none
      let outcome ← receiveHeaders env start fuel
      if ← isStale token then
        return none
      match outcome with
      | .batch [] =>
          requestInitialHeaders env token fuel start count attempts true
      | .batch raws => pure (some raws)
      | .failed =>
          requestInitialHeaders env token fuel start count attempts true
      | .timeout =>
          requestInitialHeaders env token fuel start count attempts false
      | .cancelled => pure none

end Channel

section Worker

variable {σ Backend Raw : Type} [PersistenceBackend Backend Nat Raw]
variable (btc : Bitcoin Raw) (env : Env σ Raw) (token fuel : Nat)

/--
Fetch the server's genesis and compare it with the pinned one.  A wrong one
wipes the store; no answer leaves it alone.
-/
def fetchAndVerifyGenesis (expected : BlockHash) :
    WorkerM σ Backend Raw (Option Raw) := do
  match ← requestInitialHeaders env token fuel 0 1 fuel true with
  | some (raw :: _) =>
      match btc.deserialize raw with
      | some header =>
          if btc.blockHash header = expected then
            pure (some raw)
          else do
            updateStore (HeaderStore.wipe token)
            pure none
      | none => do
          updateStore (HeaderStore.wipe token)
          pure none
  | _ => pure none

/-- Collect the headers from `low` up to `floor`, in full batches only. -/
def collectDown (low floor : Nat) :
    Nat → List Raw → WorkerM σ Backend Raw (Option (List Raw))
  | 0, _ => throw .outOfFuel
  | steps + 1, raws => do
      let start ← addU32 low raws.length
      if start < floor then
        let world ← get
        let count :=
          min (floor - start) (backfillChunk btc world.store.network)
        match ← requestHeaders env fuel start count with
        | some batch =>
            if batch.length = count then
              collectDown low floor steps (raws ++ batch)
            else
              pure none
        | none => pure none
      else
        pure (some raws)

/-- Fetch what lies between `height` and the stored floor and prepend it. -/
def extendDown (height : Nat) : WorkerM σ Backend Raw Unit := do
  let world ← get
  match world.store.minHeight with
  | none => pure ()
  | some floor =>
      if height < floor then
        let low := snap btc height world.store.network
        match ← collectDown btc env fuel low floor fuel [] with
        | none => pure ()
        | some raws => do
            let world ← get
            let _ ← mutate
              (HeaderStore.prepend btc (env.clock world.env 0) token low raws)
            pure ()
      else
        pure ()

/-- Where the chain has to start, given the server tip. -/
def wantedFloor
    (network : Network)
    (checkpoint : Option Checkpoint)
    (tipHeight : Nat) : Nat :=
  match checkpoint with
  | some checkpoint => checkpoint.height
  | none => backfillFloor btc tipHeight network

/-- The batches of the initial sync, up to right below the server tip. -/
def backfill (tipHeight : Nat) :
    Nat → Nat → WorkerM σ Backend Raw Bool
  | 0, _ => throw .outOfFuel
  | batches + 1, start =>
      if start < tipHeight then do
        let world ← get
        let count :=
          min (tipHeight - start) (backfillChunk btc world.store.network)
        match
            ← requestInitialHeaders env token fuel start count fuel true with
        | none => pure false
        | some raws => do
            let world ← get
            match
                ← mutate
                  (HeaderStore.appendBatch btc (env.clock world.env) token
                    start raws) with
            | .error _ => pure false
            | .ok () => do
                let next ← addU32 start raws.length
                backfill tipHeight batches next
      else
        pure true

/-- Bring the floor of a stored range down to `low`, or drop the range. -/
def lowerFloor (low tipHeight : Nat) : WorkerM σ Backend Raw Unit := do
  let world ← get
  if world.store.minHeight.any (fun min => low < min ∧ min ≤ tipHeight) then
    extendDown btc env token fuel low
  let world ← get
  if world.store.minHeight.any (fun min => low < min) then
    updateStore (HeaderStore.wipe token)

def pinGenesis (low : Nat) : WorkerM σ Backend Raw Bool := do
  let world ← get
  match expectedGenesis btc world.store.network with
  | none => pure true
  | some expected =>
      if low = 0 ∧ (world.store.header btc 0).isNone then
        match ← fetchAndVerifyGenesis btc env token fuel expected with
        | none => pure false
        | some raw => do
            let world ← get
            match
                ← mutate
                  (HeaderStore.append btc (env.clock world.env 0) token 0
                    raw) with
            | .ok () => pure true
            | .error _ => do
                updateStore (HeaderStore.wipe token)
                pure false
      else if low > 0 ∧ world.store.tip.isNone then
        match ← fetchAndVerifyGenesis btc env token fuel expected with
        | none => pure false
        | some _ => pure true
      else
        pure true

/-- Floor, genesis and backfill up to right below the server tip. -/
def initialSync (tipHeight : Nat) : WorkerM σ Backend Raw Bool := do
  let world ← get
  let low :=
    wantedFloor btc world.store.network world.store.checkpoint tipHeight
  lowerFloor btc env token fuel low tipHeight
  if ← pinGenesis btc env token fuel low then
    let world ← get
    let start :=
      match world.store.tip with
      | some tip => saturatingSucc tip
      | none => low
    backfill btc env token fuel tipHeight fuel start
  else
    pure false

/-- How scanning one fetched chunk ends. -/
inductive ScanOutcome where
  | found (forkHeight : Nat)
  | noMatch
  | undecodable
  deriving Repr, DecidableEq

/--
Scan a chunk downward, given from its top, for a height whose stored block is
the server's.  Every header looked at is buffered.
-/
def scanChunk
    (store : HeaderStore Backend Raw)
    (chunkStart : Nat) :
    List Raw → HeaderMap Raw → ScanOutcome × HeaderMap Raw
  | [], buffer => (.noMatch, buffer)
  | raw :: below, buffer =>
      let height := chunkStart + below.length
      let buffer := buffer.insert height raw
      match btc.deserialize raw with
      | none => (.undecodable, buffer)
      | some header =>
          if store.blockHash btc height = some (btc.blockHash header) then
            (.found height, buffer)
          else
            scanChunk store chunkStart below buffer

/-- How the walk back to a fork ends. -/
inductive WalkOutcome where
  | found (forkHeight : Nat)
  | failed
  | exhausted
  deriving Repr, DecidableEq

/-- Walk back from `walkHeight` until a stored block is the server's. -/
def walkBack (minStored : Nat) :
    Nat → Nat → HeaderMap Raw →
      WorkerM σ Backend Raw (WalkOutcome × HeaderMap Raw)
  | 0, _, _ => throw .outOfFuel
  | chunks + 1, walkHeight, buffer => do
      let chunkStart := max (walkHeight - (reorgWalkChunk - 1)) minStored
      let count := walkHeight - chunkStart + 1
      match ← requestHeaders env fuel chunkStart count with
      | none | some [] => pure (.failed, buffer)
      | some raws => do
          let _ ← addU32 chunkStart (raws.length - 1)
          let world ← get
          match scanChunk btc world.store chunkStart raws.reverse buffer with
          | (.undecodable, buffer) => pure (.failed, buffer)
          | (.found forkHeight, buffer) => pure (.found forkHeight, buffer)
          | (.noMatch, buffer) =>
              if chunkStart ≤ minStored then
                pure (.exhausted, buffer)
              else
                walkBack minStored chunks (chunkStart - 1) buffer

/--
The fork height, if the walk back finds one.  Exhausting the stored range
wipes it and hands over to `resync`.
-/
def findForkPoint
    (minStored : Nat)
    (resync : WorkerM σ Backend Raw Unit)
    (incomingHeight : Nat)
    (buffer : HeaderMap Raw) :
    WorkerM σ Backend Raw (Option Nat × HeaderMap Raw) := do
  match
      ← walkBack btc env fuel minStored fuel (incomingHeight - 1) buffer with
  | (.found forkHeight, buffer) => pure (some forkHeight, buffer)
  | (.failed, buffer) => pure (none, buffer)
  | (.exhausted, buffer) => do
      updateStore (HeaderStore.wipe token)
      resync
      pure (none, buffer)

/-- Fetch the heights of the branch the walk back did not cover. -/
def fetchBranch (incomingHeight : Nat) :
    Nat → Nat → HeaderMap Raw →
      WorkerM σ Backend Raw (Bool × HeaderMap Raw)
  | 0, _, _ => throw .outOfFuel
  | steps + 1, height, buffer =>
      if height ≤ incomingHeight then
        if height ∈ buffer then do
          let next ← addU32 height 1
          fetchBranch incomingHeight steps next buffer
        else do
          let world ← get
          let count :=
            min (incomingHeight - height + 1)
              (backfillChunk btc world.store.network)
          match ← requestHeaders env fuel height count with
          | none | some [] => pure (false, buffer)
          | some raws => do
              let next ← addU32 height raws.length
              fetchBranch incomingHeight steps next
                (buffer.insertAll
                  ((List.range' height raws.length).zip raws))
      else
        pure (true, buffer)

/-- Judge the buffered branch and switch to it only for strictly more work. -/
def switchBranch
    (forkHeight incomingHeight : Nat)
    (buffer : HeaderMap Raw) : WorkerM σ Backend Raw Unit := do
  let world ← get
  match
      HeaderBranch.validate btc world.store.network world.store.chain
        forkHeight incomingHeight buffer (env.clock world.env 0) with
  | .error _ => pure ()
  | .ok branch =>
      match
          branch.hasMoreWorkThanActive btc world.store.chain forkHeight with
      | .error _ => pure ()
      | .ok false => pure ()
      | .ok true => do
          let _ ← mutate
            (HeaderStore.replaceBranch btc token forkHeight branch.headers)
          pure ()

/-- Walk back to the fork point and switch to a stronger branch. -/
def resolveReorg
    (resync : WorkerM σ Backend Raw Unit)
    (incomingHeight : Nat)
    (incomingRaw : Raw) : WorkerM σ Backend Raw Unit := do
  let world ← get
  match world.store.minHeight with
  | none =>
      if incomingHeight ≠ 0 ∧
          (expectedGenesis btc world.store.network).isSome then
        pure ()
      else do
        let _ ← mutate
          (HeaderStore.append btc (env.clock world.env 0) token
            incomingHeight incomingRaw)
        pure ()
  | some minStored =>
      if incomingHeight = 0 then
        pure ()
      else if incomingHeight ≤ minStored then
        pure ()
      else do
        let buffer := (∅ : HeaderMap Raw).insert incomingHeight incomingRaw
        match
            ← findForkPoint btc env token fuel minStored resync
              incomingHeight buffer with
        | (none, _) => pure ()
        | (some forkHeight, buffer) => do
            let first ← addU32 forkHeight 1
            match
                ← fetchBranch btc env fuel incomingHeight fuel first
                  buffer with
            | (false, _) => pure ()
            | (true, buffer) =>
                switchBranch btc env token forkHeight incomingHeight buffer

/-- Whether a header goes right on top of the tip, or on an empty store. -/
def isContiguous (height : Nat) (header : Header) :
    WorkerM σ Backend Raw Bool := do
  let world ← get
  match world.store.tipWithHash btc with
  | some (tip, tipHash) => do
      let next ← addU32 tip 1
      pure (decide (height = next ∧ header.prevBlockhash = tipHash))
  | none => pure true

/-- One header, given what a re-anchored store does with it. -/
def applyOneStep
    (resync : WorkerM σ Backend Raw Unit)
    (height : Nat)
    (raw : Raw) : WorkerM σ Backend Raw Unit := do
  match btc.deserialize raw with
  | none => pure ()
  | some header => do
      let world ← get
      if ← isContiguous btc height header then
        match
            ← mutate
              (HeaderStore.append btc (env.clock world.env 0) token height
                raw) with
        | .ok () => pure ()
        | .error .checkpoint => pure ()
        | .error _ =>
            resolveReorg btc env token fuel resync height raw
      else
        match checkPow btc (Params.new btc world.store.network) header with
        | .error _ => pure ()
        | .ok () =>
            resolveReorg btc env token fuel resync height raw

/--
Apply one header.  A reorganisation that walks below the stored range syncs
again from scratch and applies the same header to the new range.
-/
def applyOne : Nat → Nat → Raw → WorkerM σ Backend Raw Unit
  | 0, _, _ => throw .outOfFuel
  | depth + 1, height, raw =>
      applyOneStep btc env token fuel
        (do
          if ← initialSync btc env token fuel height then
            applyOne depth height raw)
        height raw

def awaitTip : Nat → WorkerM σ Backend Raw (Option (Nat × Raw))
  | 0 => throw .outOfFuel
  | waits + 1 => do
      match ← recv env with
      | .disconnected => pure none
      | .timeout => awaitTip waits
      | .response response =>
          if ← isStale token then
            pure none
          else
            match response with
            | .tip height raw => pure (some (height.toNat, raw))
            | .stopped => pure none
            | _ => awaitTip waits

/-- Start-up: initial sync, then the announced tip. -/
def startUp : WorkerM σ Backend Raw Bool := do
  if ← isStale token then
    return false
  if !(← send env .subscribe) then
    return false
  match ← awaitTip env token fuel with
  | none => pure false
  | some (tipHeight, tipRaw) => do
      if ← initialSync btc env token fuel tipHeight then
        let world ← get
        if world.store.tip.all (fun tip => tip < tipHeight) then
          applyOne btc env token fuel fuel tipHeight tipRaw
        pure true
      else
        pure false

/-- The headers of an unsolicited batch, one after the other. -/
def applyBatch (start : Nat) :
    Nat → List Raw → WorkerM σ Backend Raw Unit
  | _, [] => pure ()
  | index, raw :: rest => do
      let height ← addU32 start index
      applyOne btc env token fuel fuel height raw
      applyBatch start (index + 1) rest

/-- Apply parked headers until none is left; false when superseded. -/
def drainDeferred : Nat → WorkerM σ Backend Raw Bool
  | 0 => throw .outOfFuel
  | items + 1 => do
      match ← popDeferred with
      | none => pure true
      | some (height, raw) =>
          if ← isStale token then
            pure false
          else do
            applyOne btc env token fuel fuel height.toNat raw
            drainDeferred items

/-- Take the height the chain should be extended down to. -/
def takeExtendDown : WorkerM σ Backend Raw (Option Nat) := do
  let world ← get
  set { world with store := { world.store with extendDown := none } }
  pure world.store.extendDown

/-- Follow the server until it goes away or the worker is superseded. -/
def steadyState : Nat → WorkerM σ Backend Raw Unit
  | 0 => throw .outOfFuel
  | rounds + 1 => do
      if !(← drainDeferred btc env token fuel fuel) then
        return ()
      match ← takeExtendDown with
      | some height => do
          extendDown btc env token fuel height
          steadyState rounds
      | none =>
          match ← recv env with
          | .disconnected => pure ()
          | .timeout => do
              if ← isStale token then
                return ()
              steadyState rounds
          | .response response => do
              if ← isStale token then
                return ()
              match response with
              | .tip height raw | .header height raw => do
                  applyOne btc env token fuel fuel height.toNat raw
                  steadyState rounds
              | .batch start raws => do
                  applyBatch btc env token fuel start.toNat 0 raws
                  steadyState rounds
              | .stopped => pure ()
              | .woken => steadyState rounds
              | .error _ => steadyState rounds

def runWorker : WorkerM σ Backend Raw Unit := do
  if ← startUp btc env token fuel then
    steadyState btc env token fuel fuel

end Worker

/--
Workers one after the other on the same store, each handed over to the next by
`restart`.  A session is the environment it starts in and how far it is
followed.
-/
def runSessions
    [PersistenceBackend Backend Nat Raw]
    (btc : Bitcoin Raw)
    (env : Env σ Raw) :
    List (σ × Nat) → HeaderStore Backend Raw → HeaderStore Backend Raw
  | [], store => store
  | (state, fuel) :: later, store =>
      let world :=
        finalState
          (runWorker btc env store.writerToken fuel
            { store := store, env := state, deferred := [] })
      runSessions btc env later world.store.restart

/-- Every state the lock was released in, the current one first. -/
def HeaderStore.visited (store : HeaderStore Backend Raw) :
    List (Inner Backend Raw) :=
  store.inner :: store.released

end Bwk
