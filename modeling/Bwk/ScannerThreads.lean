import Bwk.Transitions

namespace Bwk.ScanThread

/-!
# The listener threads of a scanner

`electrum/src/worker.rs` and the connection management of
`electrum/src/scanner.rs`: `start`, `stop` and `restart` never wait for a
listener, so several may be alive at once, each waiting for the statuses store
the one before it hands back.  A step is what one thread, or the caller, does
between two points where another can act.
-/

variable {Server S U : Type}

/-- A background thread, named by the order in which threads were spawned: the
one whose flag `stop` raises, the one whose handle is kept, and those told to
stop and not joined yet. -/
structure Worker where
  stopFlag : Option Nat
  handle : Option Nat
  windingDown : List Nat
  deriving Repr, DecidableEq

namespace Worker

variable (isFinished : Nat → Bool) (worker : Worker)

/-- Whether the thread this worker started is alive. -/
def running : Bool :=
  worker.handle.any fun handle => !isFinished handle

/-- Whether that thread has exited on its own. -/
def finished : Bool :=
  worker.handle.any isFinished

/-- Drop the handles of parked threads that have exited. -/
def reap : Worker :=
  { worker with
    windingDown :=
      worker.windingDown.filter fun handle => !isFinished handle }

/-- Park the handle of the current thread. -/
def park : Worker :=
  { worker with
    handle := none
    windingDown := worker.windingDown ++ worker.handle.toList }

/-- Keep a thread just spawned, under its own flag. -/
def start (thread : Nat) : Worker :=
  { reap isFinished worker.park with
    stopFlag := some thread
    handle := some thread }

/-- What `stop` does beside raising the flag. -/
def stop : Worker :=
  reap isFinished worker.park

end Worker

/-- The channel a listener hands its store back through. -/
structure Handback (S : Type) where
  message : Option S
  sender : Bool
  receiver : Bool
  deriving Repr, DecidableEq

/-- A receiver that goes away takes what was sent to it along. -/
def Handback.dropReceiver (handback : Handback S) : Handback S :=
  { handback with message := none, receiver := false }

/-- Where a listener takes its statuses store from. -/
inductive StatusesSource (S : Type) where
  | direct (store : S)
  /-- The channel of an earlier listener, or one nobody sends on. -/
  | handback (channel : Option Nat)
  deriving Repr, DecidableEq

/-- What a listener thread does next, with the store once it has it. -/
inductive Phase (S : Type) where
  | resolving (source : StatusesSource S)
  | checkingStop (store : S)
  | connecting (store : S)
  | checkingStopAgain (store : S)
  | markingOnline (store : S)
  | listening (store : S)
  | clearingOnline (store : S)
  | handingBack (store : S)
  | returning
  | finished
  deriving Repr, DecidableEq

/-- A listener thread, the endpoint it was started against and its flag. -/
structure ListenerThread (Server S : Type) where
  server : Server
  stopRequest : Bool
  phase : Phase S
  deriving Repr, DecidableEq

inductive ScannerCall where
  | start
  | stop
  | restart
  deriving Repr, DecidableEq

/-- What the caller of the scanner does next. -/
inductive Caller where
  /-- No call is running; the last one, if any, has returned. -/
  | idle (last : Option ScannerCall)
  /-- `start`: test whether the listener has exited on its own. -/
  | testing (call : ScannerCall)
  /-- `stop`: raise the listener's flag, in `start` to reclaim a listener that
  has exited. -/
  | raising (call : ScannerCall) (reclaiming : Bool)
  /-- `stop`: mark the scan offline. -/
  | lowering (call : ScannerCall) (reclaiming : Bool)
  /-- `start`: spawn a listener unless one runs. -/
  | spawning (call : ScannerCall)
  deriving Repr, DecidableEq

def ScannerCall.first : ScannerCall → Caller
  | .start => .testing .start
  | .stop => .raising .stop false
  | .restart => .raising .restart false

/-- A scanner with the threads it has spawned and their channels. -/
structure ElectrumScanner (Server S : Type) where
  server : Option Server
  statusesStore : Option S
  statusesRx : Option Nat
  online : Bool
  listener : Worker
  caller : Caller
  threads : List (ListenerThread Server S)
  handbacks : List (Handback S)
  deriving Repr, DecidableEq

/-- What can happen next, in any order. -/
inductive ScannerEvent (Server U : Type) where
  | setElectrum (server : Option Server)
  | call (call : ScannerCall)
  /-- The caller takes its next step. -/
  | proceed
  /-- A listener takes a step that depends on nothing outside the wallet. -/
  | advance (thread : Nat)
  /-- Connecting ends. -/
  | connected (thread : Nat) (ok : Bool)
  /-- The running listener updates the store. -/
  | updated (thread : Nat) (change : U)
  /-- The running listener has seen a stop, or lost its connection. -/
  | ended (thread : Nat)
  deriving Repr, DecidableEq

namespace Phase

/-- The store a phase holds. -/
def held : Phase S → Option S
  | .resolving (.direct store) => some store
  | .resolving (.handback _) => none
  | .checkingStop store => some store
  | .connecting store => some store
  | .checkingStopAgain store => some store
  | .markingOnline store => some store
  | .listening store => some store
  | .clearingOnline store => some store
  | .handingBack store => some store
  | .returning => none
  | .finished => none

def exited : Phase S → Bool
  | .finished => true
  | _ => false

def handedBack : Phase S → Bool
  | .returning | .finished => true
  | _ => false

/-- Whether a listener is between connecting and handing the store back. -/
def connected : Phase S → Bool
  | .checkingStopAgain _ | .markingOnline _ | .listening _
  | .clearingOnline _ | .handingBack _ => true
  | _ => false

/-- Whether a listener talks to the server. -/
def talking : Phase S → Bool
  | .connecting _ | .checkingStopAgain _ | .markingOnline _ | .listening _ =>
      true
  | _ => false

/-- Whether a listener stands between its last look at the stop flag and
marking the scan online. -/
def marking : Phase S → Bool
  | .markingOnline _ => true
  | _ => false

/-- Whether a listener has marked the scan online and not cleared that. -/
def marked : Phase S → Bool
  | .listening _ | .clearingOnline _ => true
  | _ => false

end Phase

namespace ElectrumScanner

/-- A scanner that holds its statuses store directly. -/
def new (server : Option Server) (store : S) : ElectrumScanner Server S where
  server := server
  statusesStore := some store
  statusesRx := none
  online := false
  listener := ⟨none, none, []⟩
  caller := .idle none
  threads := []
  handbacks := []

def isFinished (scanner : ElectrumScanner Server S) (thread : Nat) : Bool :=
  scanner.threads[thread]?.any fun listener => listener.phase.exited

def raiseStop
    (threads : List (ListenerThread Server S)) :
    Option Nat → List (ListenerThread Server S)
  | none => threads
  | some thread =>
      threads.modify thread fun listener =>
        { listener with stopRequest := true }

/-- Where a new listener takes its store from. -/
def source (scanner : ElectrumScanner Server S) : StatusesSource S :=
  match scanner.statusesStore, scanner.statusesRx with
  | some store, _ => .direct store
  | none, some rx => .handback (some rx)
  -- Unreachable in normal flow: routed through the unavailable path.
  | none, none => .handback none

/-- The channels once a new listener has taken its source: a receiver it does
not take is dropped. -/
def keptHandbacks (scanner : ElectrumScanner Server S) : List (Handback S) :=
  match scanner.statusesStore, scanner.statusesRx with
  | some _, some rx => scanner.handbacks.modify rx Handback.dropReceiver
  | _, _ => scanner.handbacks

def spawnListener
    (scanner : ElectrumScanner Server S)
    (server : Server) : ElectrumScanner Server S :=
  let thread := scanner.threads.length
  { scanner with
    statusesStore := none
    statusesRx := some scanner.handbacks.length
    listener := scanner.listener.start scanner.isFinished thread
    threads := scanner.threads ++ [⟨server, false, .resolving scanner.source⟩]
    handbacks := scanner.keptHandbacks ++ [⟨none, true, true⟩] }

/-- The next step of the caller. -/
def proceed
    (scanner : ElectrumScanner Server S) :
    Caller → Option (ElectrumScanner Server S)
  | .idle _ =>
      none
  | .testing call =>
      -- A listener that has exited is reclaimed first.
      if scanner.listener.finished scanner.isFinished then
        some { scanner with caller := .raising call true }
      else
        some { scanner with caller := .spawning call }
  | .raising call reclaiming =>
      some
        { scanner with
          caller := .lowering call reclaiming
          listener := scanner.listener.stop scanner.isFinished
          threads := raiseStop scanner.threads scanner.listener.stopFlag }
  | .lowering call reclaiming =>
      let next : Caller :=
        if reclaiming then
          .spawning call
        else
          match call with
          | .stop => .idle (some .stop)
          | .start => .testing .start
          | .restart => .testing .restart
      some { scanner with online := false, caller := next }
  | .spawning call =>
      match scanner.server with
      | none => some { scanner with caller := .idle (some call) }
      | some server =>
          if scanner.listener.running scanner.isFinished then
            some { scanner with caller := .idle (some call) }
          else
            some
              { scanner.spawnListener server with caller := .idle (some call) }

def place
    (scanner : ElectrumScanner Server S)
    (thread : Nat)
    (phase : Phase S) : ElectrumScanner Server S :=
  { scanner with
    threads :=
      scanner.threads.modify thread fun listener =>
        { listener with phase := phase } }

/-- A wait for a channel nobody sends on any more: the store is opened again
from disk, or the listener does not start. -/
def unavailable
    (reopenStatuses : Option S)
    (scanner : ElectrumScanner Server S)
    (thread : Nat) : ElectrumScanner Server S :=
  match reopenStatuses with
  | some store => scanner.place thread (.checkingStop store)
  | none => scanner.place thread .returning

/-- Wait for the store of an earlier listener. -/
def receive
    (reopenStatuses : Option S)
    (scanner : ElectrumScanner Server S)
    (thread : Nat)
    (channel : Option Nat) : Option (ElectrumScanner Server S) :=
  match channel with
  | none =>
      some (scanner.unavailable reopenStatuses thread)
  | some rx =>
      match scanner.handbacks[rx]? with
      | none =>
          some (scanner.unavailable reopenStatuses thread)
      | some handback =>
          match handback.message, handback.sender with
          | some store, _ =>
              let received : ElectrumScanner Server S :=
                { scanner with
                  handbacks := scanner.handbacks.modify rx
                    Handback.dropReceiver }
              some (received.place thread (.checkingStop store))
          | none, false =>
              let received : ElectrumScanner Server S :=
                { scanner with
                  handbacks := scanner.handbacks.modify rx
                    Handback.dropReceiver }
              some (received.unavailable reopenStatuses thread)
          | none, true =>
              none

/-- Hand the store back: it is lost when nobody can receive it. -/
def handBack
    (scanner : ElectrumScanner Server S)
    (thread : Nat)
    (store : S) : ElectrumScanner Server S :=
  { scanner.place thread .returning with
    handbacks :=
      scanner.handbacks.modify thread fun handback =>
        if handback.receiver then
          { handback with message := some store }
        else
          handback }

/-- The next step of a listener, where it depends on nothing outside. -/
def advance
    (reopenStatuses : Option S)
    (scanner : ElectrumScanner Server S)
    (thread : Nat)
    (listener : ListenerThread Server S) :
    Option (ElectrumScanner Server S) :=
  match listener.phase with
  | .resolving (.direct store) =>
      some (scanner.place thread (.checkingStop store))
  | .resolving (.handback channel) =>
      scanner.receive reopenStatuses thread channel
  | .checkingStop store =>
      some <| scanner.place thread <|
        if listener.stopRequest then .handingBack store else .connecting store
  | .checkingStopAgain store =>
      some <| scanner.place thread <|
        if listener.stopRequest then .handingBack store
        else .markingOnline store
  | .markingOnline store =>
      some { scanner.place thread (.listening store) with online := true }
  | .clearingOnline store =>
      some { scanner.place thread (.handingBack store) with online := false }
  | .handingBack store =>
      some (scanner.handBack thread store)
  | .returning =>
      some
        { scanner.place thread .finished with
          handbacks :=
            scanner.handbacks.modify thread fun handback =>
              { handback with sender := false } }
  | .connecting _ | .listening _ | .finished =>
      none

def step
    (update : S → U → S)
    (reopenStatuses : Option S)
    (scanner : ElectrumScanner Server S) :
    ScannerEvent Server U → Option (ElectrumScanner Server S)
  | .setElectrum server =>
      match scanner.caller with
      | .idle _ => some { scanner with server := server }
      | _ => none
  | .call call =>
      match scanner.caller with
      | .idle _ => some { scanner with caller := call.first }
      | _ => none
  | .proceed =>
      scanner.proceed scanner.caller
  | .advance thread =>
      scanner.threads[thread]?.bind (scanner.advance reopenStatuses thread)
  | .connected thread ok =>
      match (scanner.threads[thread]?).map ListenerThread.phase with
      | some (.connecting store) =>
          some <| scanner.place thread <|
            if ok then .checkingStopAgain store else .handingBack store
      | _ => none
  | .updated thread change =>
      match (scanner.threads[thread]?).map ListenerThread.phase with
      | some (.listening store) =>
          some (scanner.place thread (.listening (update store change)))
      | _ => none
  | .ended thread =>
      match (scanner.threads[thread]?).map ListenerThread.phase with
      | some (.listening store) =>
          some (scanner.place thread (.clearingOnline store))
      | _ => none

end ElectrumScanner

end Bwk.ScanThread
