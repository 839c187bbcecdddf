import Bwk.ScannerThreads

namespace Bwk.HeaderRestart

open Bwk.ScanThread (Worker)

/-!
# Restarting and stopping a shared header store

`restart` and `stop` of `electrum/src/header_store.rs`, called by several
wallets from their own threads.  A step is what a thread does between two points
where another can act: one flag, one counter, one lock or one connect.  The
merkle fetches `stop` fails are those of the merkle router.
-/

/-- A request sender: who made its pair of connections, a call or the opening
of the store, and the token it was installed under. -/
structure Sender where
  origin : Option Nat
  token : Nat
  deriving Repr, DecidableEq

/-- A thread of `run_worker`. -/
structure HeaderThread where
  origin : Option Nat
  token : Nat
  live : Bool
  deriving Repr, DecidableEq

/-- What a thread of `forward_merkle_proofs` does next. -/
inductive ForwarderPhase where
  | forwarding
  /-- In `merkle_client_ended`, past the check of the token. -/
  | clearing
  | finished
  deriving Repr, DecidableEq

/-- A thread of `forward_merkle_proofs`. -/
structure ForwarderThread where
  origin : Option Nat
  token : Nat
  phase : ForwarderPhase
  deriving Repr, DecidableEq

inductive CallPhase where
  | settingStopped
  | takingHeaderReq
  | takingMerkleReq
  | stoppingHeaderWorker
  | stoppingMerkleWorker
  | clearingStopped
  | bumpingToken
  | connecting
  | connectingMerkle
  | readingToken
  | settingHeaderReq (token : Nat)
  | settingMerkleReq (token : Nat)
  | startingMerkleWorker (token : Nat)
  | startingHeaderWorker (token : Nat)
  | returned (ok : Bool)
  deriving Repr, DecidableEq

/-- A call of `stop`, or of `restart`, which begins with it. -/
structure Call where
  restarts : Bool
  phase : CallPhase
  deriving Repr, DecidableEq

/-- The flag, the counter and the slots of a header store, the threads it
spawned and the calls on it. -/
structure HeaderStore where
  stopped : Bool
  writerToken : Nat
  headerReq : Option Sender
  merkleReq : Option Sender
  headerWorker : Worker
  merkleWorker : Worker
  headerThreads : List HeaderThread
  forwarders : List ForwarderThread
  /-- The header clients that were sent `Stop`. -/
  stoppedClients : List (Option Nat)
  /-- The merkle clients that were sent `Stop` or lost their sender. -/
  closedClients : List (Option Nat)
  calls : List Call
  deriving Repr, DecidableEq

namespace HeaderStore

variable (store : HeaderStore)

def headerFinished (thread : Nat) : Bool :=
  store.headerThreads[thread]?.all fun thread => !thread.live

def forwarderFinished (forwarder : Nat) : Bool :=
  store.forwarders[forwarder]?.all fun forwarder => forwarder.phase = .finished

/-- Whether the store has a live pair of workers. -/
def running : Bool :=
  !store.stopped &&
    (store.headerWorker.running store.headerFinished ||
      store.merkleWorker.running store.forwarderFinished)

/-- Whether a header thread is to exit: `stop` was called, or `restart` bumped
the token past its own. -/
def isStale (token : Nat) : Bool :=
  store.stopped || store.writerToken != token

/-- A header thread exits when it finds itself stale, or when its client
answers the `Stop` it was sent. -/
def workerExits (thread : Nat) : Option HeaderStore :=
  match store.headerThreads[thread]? with
  | none => none
  | some found =>
      if found.live ∧
          (store.isStale found.token ∨
            found.origin ∈ store.stoppedClients) then
        some
          { store with
            headerThreads :=
              store.headerThreads.modify thread fun thread =>
                { thread with live := false } }
      else
        none

def forwarderGoes
    (forwarder : Nat)
    (phase : ForwarderPhase) : HeaderStore :=
  { store with
    forwarders :=
      store.forwarders.modify forwarder fun forwarder =>
        { forwarder with phase := phase } }

/-- `merkle_client_ended`, once the client closed: nothing to report under a
newer token. -/
def forwarderChecks (forwarder : Nat) : Option HeaderStore :=
  match store.forwarders[forwarder]? with
  | none => none
  | some found =>
      if found.phase = .forwarding ∧ found.origin ∈ store.closedClients then
        if store.writerToken != found.token then
          some (store.forwarderGoes forwarder .finished)
        else
          some (store.forwarderGoes forwarder .clearing)
      else
        none

/-- Empty the slot of the merkle sender, whoever left it there. -/
def takeMerkleReq : HeaderStore :=
  { store with
    merkleReq := none
    closedClients :=
      store.closedClients ++ (store.merkleReq.map Sender.origin).toList }

/-- `merkle_client_ended`, once the token was checked: clear the request
side. -/
def forwarderClears (forwarder : Nat) : Option HeaderStore :=
  match store.forwarders[forwarder]? with
  | none => none
  | some found =>
      if found.phase = .clearing then
        some (store.takeMerkleReq.forwarderGoes forwarder .finished)
      else
        none

def goto (call : Nat) (phase : CallPhase) : HeaderStore :=
  { store with
    calls := store.calls.modify call fun call => { call with phase := phase } }

/-- Empty the slot of the header sender, and ask its client to stop. -/
def takeHeaderReq : HeaderStore :=
  { store with
    headerReq := none
    stoppedClients :=
      store.stoppedClients ++ (store.headerReq.map Sender.origin).toList }

/-- Spawn the forwarder of a pair of connections. -/
def startMerkleWorker (call token : Nat) : HeaderStore :=
  { store with
    forwarders := store.forwarders ++ [⟨some call, token, .forwarding⟩]
    merkleWorker :=
      store.merkleWorker.start store.forwarderFinished
        store.forwarders.length }

/-- Spawn the header thread of a pair of connections. -/
def startHeaderWorker (call token : Nat) : HeaderStore :=
  { store with
    headerThreads := store.headerThreads ++ [⟨some call, token, true⟩]
    headerWorker :=
      store.headerWorker.start store.headerFinished
        store.headerThreads.length }

/-- The next step of a call; a connect succeeds or fails. -/
def advance
    (call : Nat)
    (restarts connects : Bool) : CallPhase → Option HeaderStore
  -- `stop`
  | .settingStopped =>
      some ({ store with stopped := true }.goto call .takingHeaderReq)
  | .takingHeaderReq =>
      some (store.takeHeaderReq.goto call .takingMerkleReq)
  | .takingMerkleReq =>
      some (store.takeMerkleReq.goto call .stoppingHeaderWorker)
  | .stoppingHeaderWorker =>
      some
        ({ store with
            headerWorker :=
              store.headerWorker.stop store.headerFinished }.goto call
          .stoppingMerkleWorker)
  | .stoppingMerkleWorker =>
      some
        ({ store with
            merkleWorker :=
              store.merkleWorker.stop store.forwarderFinished }.goto call
          (if restarts then .clearingStopped else .returned true))
  -- `restart`
  | .clearingStopped =>
      some ({ store with stopped := false }.goto call .bumpingToken)
  | .bumpingToken =>
      some
        ({ store with
            writerToken := (store.writerToken + 1) % 2 ^ 64 }.goto call
          .connecting)
  -- `spawn_worker`
  | .connecting =>
      some
        (store.goto call
          (if connects then .connectingMerkle else .returned false))
  | .connectingMerkle =>
      some
        (store.goto call
          (if connects then .readingToken else .returned false))
  | .readingToken =>
      some (store.goto call (.settingHeaderReq store.writerToken))
  | .settingHeaderReq token =>
      some
        ({ store with headerReq := some ⟨some call, token⟩ }.goto call
          (.settingMerkleReq token))
  -- `spawn_merkle_client`
  | .settingMerkleReq token =>
      some
        ({ store.takeMerkleReq with
            merkleReq := some ⟨some call, token⟩ }.goto call
          (.startingMerkleWorker token))
  | .startingMerkleWorker token =>
      some
        ((store.startMerkleWorker call token).goto call
          (.startingHeaderWorker token))
  | .startingHeaderWorker token =>
      some
        ((store.startHeaderWorker call token).goto call (.returned true))
  | .returned _ => none

end HeaderStore

/-- Something happens on a header store. -/
inductive StoreEvent where
  /-- A wallet calls `restart` or `stop`. -/
  | called (restarts : Bool)
  | advances (call : Nat) (connects : Bool)
  | workerExits (thread : Nat)
  | forwarderChecks (forwarder : Nat)
  | forwarderClears (forwarder : Nat)
  deriving Repr, DecidableEq

/-- The next state, where the event can happen. -/
def step (store : HeaderStore) : StoreEvent → Option HeaderStore
  | .called restarts =>
      some
        { store with calls := store.calls ++ [⟨restarts, .settingStopped⟩] }
  | .advances call connects =>
      match store.calls[call]? with
      | none => none
      | some found => store.advance call found.restarts connects found.phase
  | .workerExits thread => store.workerExits thread
  | .forwarderChecks forwarder => store.forwarderChecks forwarder
  | .forwarderClears forwarder => store.forwarderClears forwarder

def openedIdle : HeaderStore where
  stopped := false
  writerToken := 0
  headerReq := none
  merkleReq := none
  headerWorker := ⟨none, none, []⟩
  merkleWorker := ⟨none, none, []⟩
  headerThreads := []
  forwarders := []
  stoppedClients := []
  closedClients := []
  calls := []

/-- A store opened connected: it spawns its workers before it is shared. -/
def openedConnected : HeaderStore :=
  { openedIdle with
    headerReq := some ⟨none, 0⟩
    merkleReq := some ⟨none, 0⟩
    headerWorker := openedIdle.headerWorker.start openedIdle.headerFinished 0
    merkleWorker :=
      openedIdle.merkleWorker.start openedIdle.forwarderFinished 0
    headerThreads := [⟨none, 0, true⟩]
    forwarders := [⟨none, 0, .forwarding⟩] }

namespace HeaderStore

variable (store : HeaderStore)

/-- A header thread is live, holds the current token and finds the stop flag
clear. -/
def Current (thread : HeaderThread) : Prop :=
  thread.live = true ∧ store.isStale thread.token = false

/-- At most one header thread may write. -/
def OneWriter : Prop :=
  ∀ (first second : Nat) (thread other : HeaderThread),
    store.headerThreads[first]? = some thread →
      store.headerThreads[second]? = some other →
      store.Current thread → store.Current other → first = second

/-- Either the store is stopped and every live header thread is stale, or one
header thread is current and both senders belong to its connections. -/
inductive Settled : Prop where
  | idle
      (stopped : store.stopped = true)
      (stale :
        ∀ thread ∈ store.headerThreads, thread.live = true →
          store.isStale thread.token = true)
  | connected
      {index : Nat}
      {thread : HeaderThread}
      {header merkle : Sender}
      (clear : store.stopped = false)
      (found : store.headerThreads[index]? = some thread)
      (current : store.Current thread)
      (single :
        ∀ (second : Nat) (other : HeaderThread),
          store.headerThreads[second]? = some other →
            store.Current other → second = index)
      (headerReq : store.headerReq = some header)
      (headerSame : header.origin = thread.origin)
      (merkleReq : store.merkleReq = some merkle)
      (merkleSame : merkle.origin = thread.origin)

def AllReturned : Prop :=
  ∀ call ∈ store.calls, ∃ ok, call.phase = .returned ok

/-- At most one writer, and settled once all calls have returned. -/
structure Kept : Prop where
  oneWriter : store.OneWriter
  settled : store.calls ≠ [] → store.AllReturned → store.Settled

end HeaderStore

end Bwk.HeaderRestart
