import Bwk.HeaderValidator
import Bwk.Transitions

namespace Bwk.Hwi

/-!
# The map of connected devices

`hwi/src/service.rs`: one listener polls the connected devices, a task for each
attempt connects and unlocks one of them, and all of them write one map.
The steps of the listener and of the tasks interleave; a step takes the lock of
the map once, and sends its `Update` with it.
-/

/-- The handlers of the listener that clean up after themselves. -/
inductive Handler where
  | specter
  | jade
  | bitbox
  | coldcard
  | ledger
  deriving Repr, DecidableEq

def Handler.idPrefix : Handler → String
  | .specter => "specter-"
  | .jade => "jade-"
  | .bitbox => "bitbox-"
  | .coldcard => "coldcard-"
  | .ledger => "ledger-"

/-- Whether a handler opens a device before it spawns the task. -/
def Handler.opensFirst : Handler → Bool
  | .specter | .jade => false
  | .bitbox | .coldcard | .ledger => true

/-- The simulators the listener looks for. -/
inductive Simulator where
  | specter
  | ledger
  deriving Repr, DecidableEq

def Simulator.id : Simulator → String
  | .specter => "specter-simulator"
  | .ledger => "ledger-simulator"

/-- What an attempt to connect is made by. -/
inductive Poller where
  | simulator (simulator : Simulator)
  | handler (handler : Handler)
  deriving Repr, DecidableEq

/-- The id of a device: the prefix and what names the device, less quotes. -/
def deviceId
    (handler : Handler)
    (name : String) : String :=
  String.ofList
    ((handler.idPrefix.toList ++ name.toList).filter (· ≠ '"'))

def startsWith
    (handler : Handler)
    (id : String) : Bool :=
  handler.idPrefix.toList.isPrefixOf id.toList

/-- An entry of the map; a locked one is waited for by a task. -/
inductive SigningDevice where
  | supported
  | locked (owner : Nat)
  | unsupported
  deriving Repr, DecidableEq

/-- A device as a task finds it. -/
inductive Found where
  | supported
  | locked
  | unsupported
  deriving Repr, DecidableEq

def Found.entry (task : Nat) : Found → SigningDevice
  | .supported => .supported
  | .locked => .locked task
  | .unsupported => .unsupported

inductive JadeState where
  | uninit
  | unsaved
  | locked
  | ready
  | temp
  deriving Repr, DecidableEq

inductive JadeNetworks where
  | main
  | test
  | all
  deriving Repr, DecidableEq

inductive FingerprintReply where
  | fingerprint
  | networkMismatch
  | failed
  deriving Repr, DecidableEq

/-- What a Jade says of itself, and of its fingerprint if it is asked. -/
structure GetInfoResponse where
  jadeState : JadeState
  jadeNetworks : JadeNetworks
  fingerprint : FingerprintReply
  deriving Repr, DecidableEq

/-- The device a Jade's answers make. -/
def handleJadeDevice
    (network : Network)
    (info : GetInfoResponse) : Option Found :=
  if network = .bitcoin ∧
        info.jadeNetworks ≠ .main ∧ info.jadeNetworks ≠ .all ∨
      network ≠ .bitcoin ∧ info.jadeNetworks = .main then
    some .unsupported
  else
    match info.jadeState with
    | .locked | .temp | .uninit | .unsaved => some .locked
    | .ready =>
        match info.fingerprint with
        | .networkMismatch => some .unsupported
        | .failed => none
        | .fingerprint => some .supported

/-- How the calls a task makes to its device end. -/
inductive Reply where
  /-- A call fails. -/
  | failed
  /-- No simulator listens. -/
  | notFound
  /-- The device answers, and is supported. -/
  | supported
  /-- The device answers, and is not. -/
  | unsupported
  /-- A BitBox02 waits for its pairing to be confirmed. -/
  | pairing
  /-- A Jade answers. -/
  | info (info : GetInfoResponse)
  deriving Repr, DecidableEq

inductive Stage where
  | connecting
  | unlocking
  | ended
  deriving Repr, DecidableEq

/-- A task, spawned to connect to one device. -/
structure Task where
  poller : Poller
  id : String
  stage : Stage
  deriving Repr, DecidableEq

inductive Change where
  | nothing
  | insert (found : Found)
  /-- Remove the entry. -/
  | remove
  /-- Remove the entry, and tell only if there was one. -/
  | removePresent
  deriving Repr, DecidableEq

def jadeChange
    (network : Network)
    (info : GetInfoResponse) : Change :=
  match handleJadeDevice network info with
  | some found => .insert found
  | none => .nothing

def connectChange
    (network : Network) :
    Poller → Reply → Option Change
  | .simulator _, .notFound => some .removePresent
  | .handler .jade, .info info => some (jadeChange network info)
  | .handler .bitbox, .pairing => some (.insert .locked)
  | .handler .jade, .supported | .handler .jade, .unsupported => none
  | .handler .bitbox, .supported | .handler .bitbox, .unsupported => none
  | _, .supported => some (.insert .supported)
  | .simulator .specter, .unsupported => none
  | .handler .specter, .unsupported => none
  | _, .unsupported => some (.insert .unsupported)
  | _, .failed => some .nothing
  | _, _ => none

def unlockChange
    (network : Network) :
    Poller → Reply → Option Change
  | .handler .jade, .failed => some .remove
  | .handler .jade, .info info => some (jadeChange network info)
  | .handler .bitbox, .failed => some .remove
  | .handler .bitbox, .supported => some (.insert .supported)
  | _, _ => none

def Task.change
    (network : Network)
    (task : Task)
    (reply : Reply) : Option Change :=
  match task.stage with
  | .connecting => connectChange network task.poller reply
  | .unlocking => unlockChange network task.poller reply
  | .ended => none

/-- How far a task has come after a change: what it found locked it unlocks,
once. -/
def Stage.after : Stage → Change → Stage
  | .connecting, .insert .locked => .unlocking
  | _, _ => .ended

/-- What a refresh of the HID list and of the serial ports shows; the ports may
fail to be listed. -/
structure Listing where
  specter : Option (List String)
  jade : Option (List String)
  bitbox : List String
  coldcard : List String
  ledger : List String
  deriving Repr, DecidableEq

/-- The ids of the devices a handler is shown. -/
def Listing.ids
    (listing : Listing)
    (handler : Handler) : Option (List String) :=
  let names :=
    match handler with
    | .specter => listing.specter
    | .jade => listing.jade
    | .bitbox => some listing.bitbox
    | .coldcard => some listing.coldcard
    | .ledger => some listing.ledger
  names.map (·.map (deviceId handler))

/-- What the listener does next. -/
inductive PollStep where
  /-- Look for a simulator in the map. -/
  | checkSimulator (simulator : Simulator)
  /-- Spawn the task of a simulator, unless the last one still runs. -/
  | pollSimulator (simulator : Simulator)
  /-- `cleanup_disconnected`: read the map. -/
  | findDisconnected (handler : Handler) (connectedIds : List String)
  /-- `cleanup_disconnected`: remove what was found. -/
  | removeDisconnected (handler : Handler) (ids : List String)
  /-- `should_poll`: look for a device in the map. -/
  | check (handler : Handler) (id : String)
  /-- `should_poll`: unless the last task still runs, spawn one. -/
  | poll (handler : Handler) (id : String)
  deriving Repr, DecidableEq

def visit
    (listing : Listing)
    (handler : Handler) : List PollStep :=
  match listing.ids handler with
  | some ids => .findDisconnected handler ids :: ids.map (.check handler)
  | none => []

def cycle (listing : Listing) : List PollStep :=
  .checkSimulator .specter ::
    visit listing .specter ++
    visit listing .jade ++
    .checkSimulator .ledger ::
    visit listing .bitbox ++
    visit listing .coldcard ++
    visit listing .ledger

/-- The listener, its tasks and the map they share. -/
structure PollLoop where
  network : Network
  devices : BTreeMap String SigningDevice
  /-- How many `Update`s were sent. -/
  updates : Nat
  tasks : List Task
  simulatorHandles : Simulator → Option Nat
  handles : Handler → BTreeMap String Nat
  work : List PollStep

/-- What can happen next, in any order. -/
inductive PollEvent where
  /-- The listener starts a cycle. -/
  | cycle (listing : Listing)
  /-- The listener takes its next step; a device may fail to open. -/
  | listen (opened : Bool)
  /-- A device answers a task. -/
  | answer (task : Nat) (reply : Reply)
  /-- The listener exits, and another starts. -/
  | restart
  deriving Repr, DecidableEq

namespace PollLoop

/-- The service before its first cycle. -/
def new (network : Network) : PollLoop where
  network := network
  devices := ∅
  updates := 0
  tasks := []
  simulatorHandles _ := none
  handles _ := ∅
  work := []

def isFinished
    (loop : PollLoop)
    (task : Nat) : Bool :=
  loop.tasks[task]?.all (·.stage == .ended)

def shouldPoll
    (loop : PollLoop)
    (handler : Handler)
    (id : String) : Bool :=
  !loop.devices.contains id && (loop.handles handler)[id]?.all loop.isFinished

def spawn
    (loop : PollLoop)
    (poller : Poller)
    (id : String) : PollLoop :=
  { loop with tasks := loop.tasks ++ [⟨poller, id, .connecting⟩] }

def listen
    (loop : PollLoop)
    (opened : Bool) : Option PollLoop :=
  match loop.work with
  | [] => none
  | .checkSimulator simulator :: rest =>
      some
        { loop with
          work :=
            if loop.devices.contains simulator.id then rest
            else .pollSimulator simulator :: rest }
  | .pollSimulator simulator :: rest =>
      some <|
        if (loop.simulatorHandles simulator).all loop.isFinished then
          { loop.spawn (.simulator simulator) simulator.id with
            simulatorHandles :=
              Function.update loop.simulatorHandles simulator
                (some loop.tasks.length)
            work := rest }
        else
          { loop with work := rest }
  | .findDisconnected handler connectedIds :: rest =>
      let idsToRemove :=
        (loop.devices.keys.filter (startsWith handler)).filter
          (!connectedIds.contains ·)
      some
        { loop with
          work :=
            if idsToRemove.isEmpty then rest
            else .removeDisconnected handler idsToRemove :: rest }
  | .removeDisconnected handler ids :: rest =>
      some
        { loop with
          devices := loop.devices.eraseAll ids
          handles :=
            Function.update loop.handles handler
              ((loop.handles handler).eraseAll ids)
          updates := loop.updates + 1
          work := rest }
  | .check handler id :: rest =>
      some
        { loop with
          work :=
            if loop.devices.contains id then rest
            else .poll handler id :: rest }
  | .poll handler id :: rest =>
      some <|
        if (loop.handles handler)[id]?.all loop.isFinished ∧
            (opened = true ∨ handler.opensFirst = false) then
          { loop.spawn (.handler handler) id with
            handles :=
              Function.update loop.handles handler
                ((loop.handles handler).insert id loop.tasks.length)
            work := rest }
        else
          { loop with work := rest }

def changed
    (loop : PollLoop)
    (task : Nat)
    (id : String) : Change → PollLoop
  | .nothing => loop
  | .insert found =>
      { loop with
        devices := loop.devices.insert id (found.entry task)
        updates := loop.updates + 1 }
  | .remove =>
      { loop with
        devices := loop.devices.erase id
        updates := loop.updates + 1 }
  | .removePresent =>
      { loop with
        devices := loop.devices.erase id
        updates :=
          if loop.devices.contains id then loop.updates + 1
          else loop.updates }

def answer
    (loop : PollLoop)
    (index : Nat)
    (reply : Reply) : Option PollLoop :=
  loop.tasks[index]?.bind fun task =>
    (task.change loop.network reply).map fun change =>
      { loop.changed index task.id change with
        tasks :=
          loop.tasks.set index { task with stage := task.stage.after change } }

def step (loop : PollLoop) : PollEvent → Option PollLoop
  | .cycle listing =>
      if loop.work = [] then some { loop with work := cycle listing } else none
  | .listen opened => loop.listen opened
  | .answer task reply => loop.answer task reply
  | .restart =>
      if loop.work = [] then
        some
          { loop with
            simulatorHandles := fun _ => none
            handles := fun _ => ∅ }
      else
        none

/-- Every entry still locked is waited for by a task of its device. -/
def LockedOwned (loop : PollLoop) : Prop :=
  ∀ (id : String) (owner : Nat),
    loop.devices[id]? = some (.locked owner) →
    ∃ task, loop.tasks[owner]? = some task ∧
      task.id = id ∧ task.stage = .unlocking

/-- A device was let go by the task that waited for it: its entry was replaced,
or it is gone and the device is polled again, unless another task is at it. -/
def Released
    (loop : PollLoop)
    (id : String)
    (owner : Nat) : Prop :=
  loop.devices[id]? = some .supported ∨
    loop.devices[id]? = some .unsupported ∨
    loop.devices[id]? = none ∧
      ∀ handler,
        loop.shouldPoll handler id = true ∨
          ∃ other, other ≠ owner ∧
            (loop.handles handler)[id]? = some other ∧
            loop.isFinished other = false

/-- No device of a handler was unplugged that is the simulator of its family. -/
def SparesSimulators
    (loop : PollLoop)
    (handler : Handler)
    (connectedIds : List String) : Prop :=
  ∀ simulator ∈ [Simulator.specter, .ledger],
    startsWith handler simulator.id = true →
      loop.devices.contains simulator.id = true →
      simulator.id ∈ connectedIds

/-- An unlock does not find its device locked again, and if it changes nothing,
its entry is not locked any more. -/
def Unlocks
    (loop : PollLoop)
    (index : Nat)
    (task : Task)
    (reply : Reply) : Prop :=
  task.stage = .unlocking →
    task.change loop.network reply ≠ some (.insert .locked) ∧
      (task.change loop.network reply = some .nothing →
        loop.devices[task.id]? ≠ some (.locked index))

/-- The steps that do not remove a simulator for want of a device with its
prefix, and do not leave a locked entry behind. -/
def Allowed (loop : PollLoop) : PollEvent → Prop
  | .listen _ =>
      match loop.work with
      | .findDisconnected handler connectedIds :: _ =>
          loop.SparesSimulators handler connectedIds
      | _ => True
  | .answer index reply =>
      ∀ task ∈ loop.tasks[index]?, loop.Unlocks index task reply
  | _ => True

instance (loop : PollLoop) (handler : Handler) (ids : List String) :
    Decidable (loop.SparesSimulators handler ids) :=
  inferInstanceAs (Decidable (∀ simulator ∈ _, _))

instance (loop : PollLoop) (index : Nat) (task : Task) (reply : Reply) :
    Decidable (loop.Unlocks index task reply) :=
  inferInstanceAs (Decidable (_ → _ ∧ _))

instance : DecidableRel Allowed
  | loop, .listen _ =>
      match work : loop.work with
      | .findDisconnected handler connectedIds :: _ =>
          decidable_of_iff (loop.SparesSimulators handler connectedIds)
            (by rw [Allowed, work])
      | [] | .checkSimulator _ :: _ | .pollSimulator _ :: _
      | .removeDisconnected _ _ :: _ | .check _ _ :: _ | .poll _ _ :: _ =>
          .isTrue (by rw [Allowed, work]; trivial)
  | loop, .answer index _ =>
      inferInstanceAs (Decidable (∀ task ∈ loop.tasks[index]?, _))
  | _, .cycle _ => .isTrue trivial
  | _, .restart => .isTrue trivial

def SameMap (loop next : PollLoop) : Prop :=
  next.devices = loop.devices ∧ next.updates = loop.updates

/-- The event ends the unlock of a device. -/
def EndsUnlock (loop : PollLoop) : PollEvent → Prop
  | .answer index _ =>
      ∃ task ∈ loop.tasks[index]?, task.stage = .unlocking
  | _ => False

end PollLoop

/-- The connected devices, and how each attempt to connect to one goes. -/
structure Bench where
  listing : Listing
  opens : Handler → String → Bool
  reply : Poller → String → Reply

namespace Bench

/-- What a cycle polls. -/
def polled (bench : Bench) : List (Poller × String) :=
  [Simulator.specter, .ledger].map (fun simulator =>
      (.simulator simulator, simulator.id)) ++
    [Handler.specter, .jade, .bitbox, .coldcard, .ledger].flatMap fun handler =>
      ((bench.listing.ids handler).getD []).map (.handler handler, ·)

/-- Whether the listener spawns a task for what it polls. -/
def attempts (bench : Bench) : Poller → String → Bool
  | .simulator _, _ => true
  | .handler handler, id => !handler.opensFirst || bench.opens handler id

/-- Whether an attempt inserts a device. -/
def inserts
    (bench : Bench)
    (network : Network)
    (poller : Poller)
    (id : String) : Bool :=
  bench.attempts poller id &&
    match connectChange network poller (bench.reply poller id) with
    | some (.insert _) => true
    | _ => false

/-- An attempt under way would change nothing. -/
def Fruitless
    (bench : Bench)
    (loop : PollLoop)
    (poller : Poller)
    (id : String) : Prop :=
  ∀ change ∈ connectChange loop.network poller (bench.reply poller id),
    change = .nothing ∨
      change = .removePresent ∧ loop.devices.contains id = false

/-- A task under way would neither add an entry nor remove one. -/
def Harmless
    (bench : Bench)
    (loop : PollLoop)
    (task : Task) : Prop :=
  match task.stage with
  | .connecting => bench.Fruitless loop task.poller task.id
  | .unlocking => loop.devices.contains task.id = true
  | .ended => True

/-- Every connected device was inserted and nothing else is in the map, the
listener is between two cycles, and no task under way would change that. -/
structure Settled
    (bench : Bench)
    (loop : PollLoop) : Prop where
  idle : loop.work = []
  known : ∀ id ∈ loop.devices.keys, id ∈ bench.polled.map Prod.snd
  inserted :
    ∀ entry ∈ bench.polled,
      bench.inserts loop.network entry.1 entry.2 = true →
      loop.devices.contains entry.2 = true
  running : ∀ task ∈ loop.tasks, bench.Harmless loop task

/-- A step while the bench is as it is: a cycle is shown the same devices, each
attempt goes as the others do, and an unlock that ends finds a device. -/
def Keeps
    (bench : Bench)
    (loop : PollLoop) : PollEvent → Prop
  | .cycle listing => listing = bench.listing
  | .listen opened =>
      match loop.work with
      | .poll handler id :: _ => opened = bench.opens handler id
      | _ => True
  | .answer index reply =>
      ∀ task ∈ loop.tasks[index]?,
        (task.stage = .connecting →
          reply = bench.reply task.poller task.id) ∧
        (task.stage = .unlocking →
          ∃ found ∈ [Found.supported, .locked, .unsupported],
            task.change loop.network reply = some (.insert found))
  | .restart => True

variable (bench : Bench) (loop : PollLoop)

instance : DecidablePred (bench.Keeps loop)
  | .cycle _ => inferInstanceAs (Decidable (_ = _))
  | .listen opened =>
      match work : loop.work with
      | .poll handler id :: _ =>
          decidable_of_iff (opened = bench.opens handler id)
            (by rw [Keeps, work])
      | [] | .checkSimulator _ :: _ | .pollSimulator _ :: _
      | .findDisconnected _ _ :: _ | .removeDisconnected _ _ :: _
      | .check _ _ :: _ =>
          .isTrue (by rw [Keeps, work]; trivial)
  | .answer index _ =>
      inferInstanceAs (Decidable (∀ task ∈ loop.tasks[index]?, _))
  | .restart => .isTrue trivial

instance (poller : Poller) (id : String) :
    Decidable (bench.Fruitless loop poller id) :=
  inferInstanceAs (Decidable (∀ change ∈ connectChange _ _ _, _))

instance (task : Task) : Decidable (bench.Harmless loop task) :=
  match reached : task.stage with
  | .connecting =>
      decidable_of_iff (bench.Fruitless loop task.poller task.id)
        (by rw [Harmless, reached])
  | .unlocking =>
      decidable_of_iff (loop.devices.contains task.id = true)
        (by rw [Harmless, reached])
  | .ended => .isTrue (by rw [Harmless, reached]; trivial)

instance : Decidable (bench.Settled loop) :=
  decidable_of_iff
    (loop.work = [] ∧
      (∀ id ∈ loop.devices.keys, id ∈ bench.polled.map Prod.snd) ∧
      (∀ entry ∈ bench.polled,
        bench.inserts loop.network entry.1 entry.2 = true →
        loop.devices.contains entry.2 = true) ∧
      ∀ task ∈ loop.tasks, bench.Harmless loop task)
    ⟨fun ⟨idle, known, inserted, running⟩ =>
      ⟨idle, known, inserted, running⟩,
     fun ⟨idle, known, inserted, running⟩ =>
      ⟨idle, known, inserted, running⟩⟩

end Bench

theorem Task.stage_ne_ended
    {network : Network}
    {task : Task}
    {reply : Reply}
    {change : Change}
    (changes : task.change network reply = some change) :
    task.stage ≠ .ended := by
  intro ended
  rw [Task.change, ended] at changes
  cases changes

theorem idPrefix_head
    (handler : Handler)
    (rest : List Char) :
    (handler.idPrefix.toList ++ rest).head? =
      handler.idPrefix.toList.head? := by
  cases handler <;> rfl

theorem eq_of_idPrefix_head
    {handler other : Handler}
    (same :
      handler.idPrefix.toList.head? = other.idPrefix.toList.head?) :
    handler = other := by
  cases handler <;> cases other <;>
    first
    | rfl
    | exact absurd same (by decide)

theorem deviceId_head
    (handler : Handler)
    (name : String) :
    (deviceId handler name).toList.head? =
      handler.idPrefix.toList.head? := by
  have unquoted :
      handler.idPrefix.toList.filter (· ≠ '"') =
        handler.idPrefix.toList := by
    cases handler <;> decide
  rw [deviceId, String.toList_ofList, List.filter_append, unquoted,
    idPrefix_head]

/-- No handler gives out an id with another's prefix. -/
theorem eq_of_startsWith_deviceId
    {handler other : Handler}
    {name : String}
    (starts : startsWith handler (deviceId other name) = true) :
    handler = other := by
  rw [startsWith, List.isPrefixOf_iff_prefix] at starts
  obtain ⟨rest, split⟩ := starts
  apply eq_of_idPrefix_head
  rw [← idPrefix_head handler rest, split, deviceId_head]

namespace Bench

variable {bench : Bench} {start loop next : PollLoop}

theorem mem_polled_simulator
    {simulator : Simulator}
    {id : String} :
    (.simulator simulator, id) ∈ bench.polled ↔ id = simulator.id := by
  cases simulator <;> simp [polled]

theorem mem_polled_handler
    {handler : Handler}
    {id : String} :
    (.handler handler, id) ∈ bench.polled ↔
      ∃ ids, bench.listing.ids handler = some ids ∧ id ∈ ids := by
  cases shown : bench.listing.ids handler with
  | none | some ids =>
      cases handler <;> simp [polled, shown]

/-- Where nothing but connected devices is in the map, and no simulator is
taken for a device, nothing is found disconnected. -/
theorem none_disconnected
    (known : ∀ id ∈ loop.devices.keys, id ∈ bench.polled.map Prod.snd)
    {handler : Handler}
    {ids : List String}
    (shown : bench.listing.ids handler = some ids)
    (spares : loop.SparesSimulators handler ids) :
    (loop.devices.keys.filter (startsWith handler)).filter
      (!ids.contains ·) = [] := by
  rw [List.filter_eq_nil_iff]
  intro id present
  obtain ⟨stored, starts⟩ := List.mem_filter.mp present
  suffices connected : id ∈ ids by
    simpa using connected
  obtain ⟨⟨poller, _⟩, polled, rfl⟩ := List.mem_map.mp (known id stored)
  cases poller with
  | simulator simulator =>
      obtain rfl := mem_polled_simulator.mp polled
      apply spares simulator _ starts
      · simpa using stored
      · cases simulator <;> simp
  | handler other =>
      obtain ⟨others, shown', listed⟩ := mem_polled_handler.mp polled
      obtain ⟨names, _, rfl⟩ := Option.map_eq_some_iff.mp shown'
      obtain ⟨name, _, rfl⟩ := List.mem_map.mp listed
      obtain rfl := eq_of_startsWith_deviceId starts
      rw [shown'] at shown
      cases shown
      exact listed

/-- What the listener has yet to do, in a cycle that changes nothing. -/
def Expects
    (bench : Bench)
    (start : PollLoop) : PollStep → Prop
  | .checkSimulator _ => True
  | .pollSimulator simulator =>
      start.devices.contains simulator.id = false
  | .findDisconnected handler connectedIds =>
      bench.listing.ids handler = some connectedIds
  | .removeDisconnected _ _ => False
  | .check handler id => (.handler handler, id) ∈ bench.polled
  | .poll handler id =>
      (.handler handler, id) ∈ bench.polled ∧
        start.devices.contains id = false

/-- No entry was added or removed since the start, and none is about to be. -/
structure Undisturbed
    (bench : Bench)
    (start loop : PollLoop) : Prop where
  network : loop.network = start.network
  entries :
    ∀ id, loop.devices.contains id = start.devices.contains id
  work : ∀ item ∈ loop.work, bench.Expects start item
  running : ∀ task ∈ loop.tasks, bench.Harmless start task

theorem connectChange_ne_remove
    {network : Network}
    {poller : Poller}
    {reply : Reply} :
    connectChange network poller reply ≠ some .remove := by
  intro removes
  unfold connectChange jadeChange at removes
  split at removes <;> grind

/-- An attempt that inserts nothing, on what is not in the map, is fruitless. -/
theorem fruitless_of_absent
    {poller : Poller}
    {id : String}
    (attempted : bench.attempts poller id = true)
    (inserted :
      bench.inserts start.network poller id = true →
        start.devices.contains id = true)
    (absent : start.devices.contains id = false) :
    bench.Fruitless start poller id := by
  intro change changes
  rw [Option.mem_def] at changes
  cases change with
  | nothing =>
      exact .inl rfl
  | removePresent =>
      exact .inr ⟨rfl, absent⟩
  | remove =>
      exact absurd changes connectChange_ne_remove
  | insert found =>
      have inserts : bench.inserts start.network poller id = true := by
        rw [Bench.inserts, attempted, changes]
        rfl
      rw [inserted inserts] at absent
      cases absent

theorem expects_cycle :
    ∀ item ∈ cycle bench.listing, bench.Expects start item := by
  have visits :
      ∀ handler, ∀ item ∈ visit bench.listing handler,
        bench.Expects start item := by
    intro handler item present
    rw [visit] at present
    split at present
    case h_1 ids shown =>
      rcases List.mem_cons.mp present with rfl | checked
      · exact shown
      · obtain ⟨id, listed, rfl⟩ := List.mem_map.mp checked
        exact mem_polled_handler.mpr ⟨ids, shown, listed⟩
    case h_2 =>
      cases present
  intro item present
  simp only [cycle, List.cons_append, List.append_assoc, List.mem_cons,
    List.mem_append] at present
  rcases present with
    rfl | visited | visited | rfl | visited | visited | visited
  · trivial
  · exact visits _ _ visited
  · exact visits _ _ visited
  · trivial
  · exact visits _ _ visited
  · exact visits _ _ visited
  · exact visits _ _ visited

theorem Undisturbed.running_spawn
    (undisturbed : bench.Undisturbed start loop)
    {poller : Poller}
    {id : String}
    (fruitless : bench.Fruitless start poller id) :
    ∀ task ∈ (loop.spawn poller id).tasks, bench.Harmless start task := by
  intro task present
  rcases List.mem_append.mp present with before | new
  · exact undisturbed.running task before
  · obtain rfl := List.mem_singleton.mp new
    exact fruitless

theorem Undisturbed.listen
    (undisturbed : bench.Undisturbed start loop)
    (settled : bench.Settled start)
    {opened : Bool}
    (allowed : loop.Allowed (.listen opened))
    (keeps : bench.Keeps loop (.listen opened))
    (stepped : loop.listen opened = some next) :
    bench.Undisturbed start next ∧ loop.SameMap next := by
  obtain ⟨network, entries, work, running⟩ := id undisturbed
  rw [PollLoop.listen] at stepped
  split at stepped
  case h_1 =>
    cases stepped
  case h_2 simulator rest doing =>
    cases stepped
    rw [doing, List.forall_mem_cons] at work
    refine ⟨⟨network, entries, ?_, running⟩, rfl, rfl⟩
    rw [entries]
    split
    · exact work.2
    · next absent =>
      exact List.forall_mem_cons.mpr
        ⟨eq_false_of_ne_true absent, work.2⟩
  case h_3 simulator rest doing =>
    rw [doing, List.forall_mem_cons] at work
    cases stepped
    split
    · refine ⟨⟨network, entries, work.2, ?_⟩, rfl, rfl⟩
      apply undisturbed.running_spawn
      apply fruitless_of_absent rfl _ work.1
      exact settled.inserted (.simulator simulator, simulator.id)
        (mem_polled_simulator.mpr rfl)
    · exact ⟨⟨network, entries, work.2, running⟩, rfl, rfl⟩
  case h_4 handler connectedIds rest doing =>
    rw [PollLoop.Allowed, doing] at allowed
    rw [doing, List.forall_mem_cons] at work
    cases stepped
    have known :
        ∀ id ∈ loop.devices.keys, id ∈ bench.polled.map Prod.snd := by
      intro id stored
      apply settled.known
      rw [Std.ExtTreeMap.mem_keys, Std.ExtTreeMap.mem_iff_contains] at stored ⊢
      rw [← entries]
      exact stored
    refine ⟨⟨network, entries, ?_, running⟩, rfl, rfl⟩
    rw [none_disconnected known work.1 allowed, if_pos List.isEmpty_nil]
    exact work.2
  case h_5 handler ids rest doing =>
    rw [doing, List.forall_mem_cons] at work
    exact work.1.elim
  case h_6 handler id rest doing =>
    cases stepped
    rw [doing, List.forall_mem_cons] at work
    refine ⟨⟨network, entries, ?_, running⟩, rfl, rfl⟩
    rw [entries]
    split
    · exact work.2
    · next absent =>
      exact List.forall_mem_cons.mpr
        ⟨⟨work.1, eq_false_of_ne_true absent⟩, work.2⟩
  case h_7 handler id rest doing =>
    rw [doing, List.forall_mem_cons] at work
    rw [Keeps, doing] at keeps
    cases stepped
    split
    · next spawns =>
      refine ⟨⟨network, entries, work.2, ?_⟩, rfl, rfl⟩
      apply undisturbed.running_spawn
      have attempted : bench.attempts (.handler handler) id = true := by
        rw [attempts, ← keeps, Bool.or_eq_true, Bool.not_eq_true',
          Or.comm]
        exact spawns.2
      exact fruitless_of_absent attempted
        (settled.inserted (.handler handler, id) work.1.1) work.1.2
    · exact ⟨⟨network, entries, work.2, running⟩, rfl, rfl⟩

/-- A harmless task adds and removes no entry, and one that connects changes
nothing. -/
theorem Undisturbed.changed
    (undisturbed : bench.Undisturbed start loop)
    {index : Nat}
    {task : Task}
    {reply : Reply}
    {change : Change}
    (stood : loop.tasks[index]? = some task)
    (keeps : bench.Keeps loop (.answer index reply))
    (changes : task.change loop.network reply = some change) :
    task.stage.after change = .ended ∧
      (∀ id, (loop.changed index task.id change).devices.contains id =
        start.devices.contains id) ∧
      (task.stage ≠ .unlocking →
        loop.SameMap (loop.changed index task.id change)) := by
  obtain ⟨network, entries, _, running⟩ := undisturbed
  have harmless := running task (List.mem_of_getElem? stood)
  have ⟨connects, unlocks⟩ := keeps task stood
  rw [Harmless] at harmless
  cases reached : task.stage with
  | ended =>
      exact absurd reached (Task.stage_ne_ended changes)
  | unlocking =>
      rw [reached] at harmless
      obtain ⟨found, _, inserts⟩ := unlocks reached
      rw [inserts] at changes
      cases changes
      refine ⟨by cases found <;> rfl, fun id => ?_, fun other => absurd rfl other⟩
      rw [PollLoop.changed, Std.ExtTreeMap.contains_insert, entries]
      by_cases same : task.id = id
      · rw [← same, harmless, Bool.or_true]
      · simp [same]
  | connecting =>
      rw [reached] at harmless
      rw [Task.change, reached, connects reached, network] at changes
      rcases harmless change changes with rfl | ⟨rfl, absent⟩
      · exact ⟨rfl, entries, fun _ => ⟨rfl, rfl⟩⟩
      · rw [← entries] at absent
        have same :
            loop.SameMap (loop.changed index task.id .removePresent) := by
          rw [PollLoop.changed, absent]
          refine ⟨?_, rfl⟩
          apply Std.ExtTreeMap.ext_getElem?
          intro id
          rw [BTreeMap.getElem?_erase_eq]
          split
          case isTrue same =>
            rw [← same,
              Std.ExtTreeMap.getElem?_eq_none_of_contains_eq_false absent]
          case isFalse =>
            rfl
        refine ⟨rfl, fun id => ?_, fun _ => same⟩
        rw [same.1]
        exact entries id

theorem Settled.undisturbed
    (settled : bench.Settled start) :
    bench.Undisturbed start start where
  network := rfl
  entries _ := rfl
  work item present := by
    rw [settled.idle] at present
    cases present
  running := settled.running

/-- Over an unchanging bench, every allowed step leaves an undisturbed map
undisturbed, and changes nothing if it ends no unlock. -/
theorem Undisturbed.step
    (undisturbed : bench.Undisturbed start loop)
    (settled : bench.Settled start)
    {event : PollEvent}
    (allowed : loop.Allowed event)
    (keeps : bench.Keeps loop event)
    (stepped : loop.step event = some next) :
    bench.Undisturbed start next ∧
      (¬ loop.EndsUnlock event → loop.SameMap next) := by
  cases event with
  | cycle listing =>
      obtain ⟨_, taken⟩ := (Option.ite_none_right_eq_some ..).mp stepped
      cases taken
      cases keeps
      exact ⟨{ undisturbed with work := expects_cycle }, fun _ => ⟨rfl, rfl⟩⟩
  | listen opened =>
      have ⟨stays, same⟩ :=
        undisturbed.listen settled allowed keeps stepped
      exact ⟨stays, fun _ => same⟩
  | answer index reply =>
      obtain ⟨task, stood, answered⟩ := Option.bind_eq_some_iff.mp stepped
      obtain ⟨change, changes, rfl⟩ := Option.map_eq_some_iff.mp answered
      obtain ⟨ended, entries, same⟩ :=
        undisturbed.changed stood keeps changes
      constructor
      · refine ⟨?_, entries, ?_, ?_⟩
        · cases change <;> exact undisturbed.network
        · cases change <;> exact undisturbed.work
        · intro other present
          rcases List.mem_or_eq_of_mem_set present with before | rfl
          · exact undisturbed.running other before
          · rw [Harmless, ended]
            trivial
      · intro connects
        exact same fun unlocking => connects ⟨task, stood, unlocking⟩
  | restart =>
      obtain ⟨_, taken⟩ := (Option.ite_none_right_eq_some ..).mp stepped
      cases taken
      exact ⟨{ undisturbed with }, fun _ => ⟨rfl, rfl⟩⟩

end Bench

namespace PollLoop

variable {loop next : PollLoop}

/-- What the listener does next removes entries and adds tasks, and changes no
entry and no task. -/
theorem listen_keeps
    {opened : Bool}
    (stepped : loop.listen opened = some next) :
    (∀ (id : String) (device : SigningDevice),
      next.devices[id]? = some device → loop.devices[id]? = some device) ∧
      ∃ spawned, next.tasks = loop.tasks ++ spawned := by
  rw [listen] at stepped
  split at stepped
  case h_1 =>
    cases stepped
  case h_5 =>
    cases stepped
    refine ⟨?_, [], (List.append_nil _).symm⟩
    intro id device present
    rw [BTreeMap.getElem?_eraseAll] at present
    exact ((Option.ite_none_left_eq_some ..).mp present).2
  case h_3 | h_7 =>
    cases stepped
    split
    · exact ⟨fun _ _ present => present, _, rfl⟩
    · exact ⟨fun _ _ present => present, [], (List.append_nil _).symm⟩
  all_goals
    cases stepped
    exact ⟨fun _ _ present => present, [], (List.append_nil _).symm⟩

/-- An entry that stands after a task changed the map is the one the task
inserted, or stood before. -/
theorem changed_devices
    {index : Nat}
    {name id : String}
    {change : Change}
    {device : SigningDevice}
    (present : (loop.changed index name change).devices[id]? = some device) :
    (name = id ∧ ∃ found, change = .insert found ∧ device = found.entry index) ∨
      (name ≠ id ∨ change = .nothing) ∧ loop.devices[id]? = some device := by
  cases change with
  | nothing =>
      exact .inr ⟨.inr rfl, present⟩
  | insert found =>
      rw [changed, BTreeMap.getElem?_insert_eq] at present
      split at present
      case isTrue same =>
        cases present
        exact .inl ⟨same, found, rfl, rfl⟩
      case isFalse other =>
        exact .inr ⟨.inl other, present⟩
  | remove | removePresent =>
      rw [changed, BTreeMap.getElem?_erase_eq] at present
      obtain ⟨other, present⟩ := (Option.ite_none_left_eq_some ..).mp present
      exact .inr ⟨.inl other, present⟩

@[simp] theorem changed_handles
    (index : Nat)
    (id : String)
    (change : Change) :
    (loop.changed index id change).handles = loop.handles := by
  cases change <;> rfl

theorem LockedOwned.answer
    (owned : loop.LockedOwned)
    {index : Nat}
    {reply : Reply}
    (allowed : loop.Allowed (.answer index reply))
    (stepped : loop.answer index reply = some next) :
    next.LockedOwned := by
  obtain ⟨task, stood, answered⟩ := Option.bind_eq_some_iff.mp stepped
  obtain ⟨change, changes, rfl⟩ := Option.map_eq_some_iff.mp answered
  have unlocks := allowed task stood
  obtain ⟨inside, _⟩ := List.getElem?_eq_some_iff.mp stood
  intro id owner locked
  rcases changed_devices locked with
    ⟨same, found, rfl, entry⟩ | ⟨kept, locked⟩
  · cases found with
    | supported | unsupported =>
        cases entry
    | locked =>
        cases entry
        have connecting : task.stage = .connecting := by
          cases reached : task.stage with
          | connecting =>
              rfl
          | unlocking =>
              exact absurd changes (unlocks reached).1
          | ended =>
              exact absurd reached (Task.stage_ne_ended changes)
        refine ⟨_, List.getElem?_set_self inside, same, ?_⟩
        rw [connecting]
        rfl
  · obtain ⟨waiting, waits, named, unlocking⟩ := owned id owner locked
    by_cases mine : index = owner
    · subst mine
      rw [stood] at waits
      cases waits
      have changesNothing : change = .nothing :=
        kept.resolve_left fun other => other named
      rw [changesNothing] at changes
      rw [← named] at locked
      exact absurd locked ((unlocks unlocking).2 changes)
    · refine ⟨waiting, ?_, named, unlocking⟩
      rw [List.getElem?_set_ne mine]
      exact waits

theorem LockedOwned.step
    (owned : loop.LockedOwned)
    {event : PollEvent}
    (allowed : loop.Allowed event)
    (stepped : loop.step event = some next) :
    next.LockedOwned := by
  cases event with
  | cycle listing =>
      obtain ⟨_, taken⟩ := (Option.ite_none_right_eq_some ..).mp stepped
      cases taken
      exact owned
  | listen opened =>
      obtain ⟨entries, spawned, tasks⟩ := listen_keeps stepped
      intro id owner locked
      obtain ⟨task, stood, waits⟩ := owned id owner (entries _ _ locked)
      obtain ⟨inside, _⟩ := List.getElem?_eq_some_iff.mp stood
      refine ⟨task, ?_, waits⟩
      rw [tasks, List.getElem?_append_left inside]
      exact stood
  | answer index reply =>
      exact owned.answer allowed stepped
  | restart =>
      obtain ⟨_, taken⟩ := (Option.ite_none_right_eq_some ..).mp stepped
      cases taken
      exact owned

theorem LockedOwned.released
    (owned : loop.LockedOwned)
    {id : String}
    {owner : Nat}
    {reply : Reply}
    (locked : loop.devices[id]? = some (.locked owner))
    (allowed : loop.Allowed (.answer owner reply))
    (stepped : loop.answer owner reply = some next) :
    next.Released id owner := by
  obtain ⟨task, stood, named, unlocking⟩ := owned id owner locked
  obtain ⟨_, stood', answered⟩ := Option.bind_eq_some_iff.mp stepped
  obtain rfl := Option.some.inj (stood.symm.trans stood')
  obtain ⟨change, changes, rfl⟩ := Option.map_eq_some_iff.mp answered
  obtain ⟨unlocked, left⟩ := allowed task stood unlocking
  obtain ⟨inside, _⟩ := List.getElem?_eq_some_iff.mp stood
  subst named
  cases gone : (loop.changed owner task.id change).devices[task.id]? with
  | some device =>
      rcases changed_devices gone with
        ⟨_, found, rfl, rfl⟩ | ⟨kept, stays⟩
      · cases found with
        | supported =>
            exact .inl gone
        | unsupported =>
            exact .inr (.inl gone)
        | locked =>
            exact absurd changes unlocked
      · obtain rfl := kept.resolve_left fun other => other rfl
        exact absurd locked (left changes)
  | none =>
      refine .inr (.inr ⟨gone, fun handler => ?_⟩)
      rw [shouldPoll, Std.ExtTreeMap.contains_eq_isSome_getElem?, gone,
        changed_handles]
      cases handle : (loop.handles handler)[task.id]? with
      | none =>
          exact .inl rfl
      | some other =>
          rw [Option.isSome_none, Bool.not_false, Bool.true_and,
            Option.all_some]
          cases finished : isFinished _ other with
          | true =>
              exact .inl rfl
          | false =>
              refine .inr ⟨other, ?_, rfl, finished⟩
              rintro rfl
              rw [isFinished, List.getElem?_set_self inside, unlocking]
                at finished
              cases finished

theorem new_lockedOwned (network : Network) : (new network).LockedOwned := by
  intro id owner locked
  rw [new, Std.ExtTreeMap.getElem?_empty] at locked
  cases locked

/--
In a run whose steps are all allowed: once every connected device was inserted,
cycles over an unchanging bench change no entry and send no update; every
locked entry is waited for by a task of its device; and however the unlock
ends, the device is let go.
-/
theorem allowed_stable_and_live
    (network : Network)
    (events : List PollEvent)
    (loop : PollLoop)
    (ran : Run step Allowed (new network) events loop) :
    (∀ (bench : Bench) (later : List PollEvent) (next : PollLoop)
        (event : PollEvent) (last : PollLoop),
      bench.Settled loop →
      Run step
        (fun loop event => loop.Allowed event ∧ bench.Keeps loop event)
        loop later next →
      next.Allowed event → bench.Keeps next event →
      ¬ next.EndsUnlock event →
      next.step event = some last →
      next.SameMap last) ∧
    loop.LockedOwned ∧
    ∀ (id : String) (owner : Nat) (reply : Reply) (next : PollLoop),
      loop.devices[id]? = some (.locked owner) →
      loop.Allowed (.answer owner reply) →
      loop.step (.answer owner reply) = some next →
      next.Released id owner := by
  have owned : loop.LockedOwned :=
    ran.invariant LockedOwned (new_lockedOwned network)
      fun owned allowed stepped => owned.step allowed stepped
  refine ⟨?_, owned, ?_⟩
  · intro bench later next event last settled further allowed keeps ends
      stepped
    have undisturbed : bench.Undisturbed loop next :=
      further.invariant (bench.Undisturbed loop) settled.undisturbed
        fun undisturbed may stepped =>
          (undisturbed.step settled may.1 may.2 stepped).1
    exact (undisturbed.step settled allowed keeps stepped).2 ends
  · intro id owner reply next locked allowed stepped
    exact owned.released locked allowed stepped

def listens (steps : Nat) : List PollEvent :=
  List.replicate steps (.listen true)

/-- A locked Jade, and no simulator. -/
def jadeBench : Bench where
  listing := ⟨some [], some ["ttyACM0"], [], [], []⟩
  opens _ _ := true
  reply
    | .simulator _, _ => .notFound
    | .handler _, _ => .info ⟨.locked, .main, .failed⟩

def jadeFound : List PollEvent :=
  .cycle jadeBench.listing :: listens 11 ++
    [.answer 0 .notFound, .answer 2 .notFound,
      .answer 1 (.info ⟨.locked, .main, .failed⟩)]

def jadeUnlocks : PollEvent :=
  .answer 1 (.info ⟨.ready, .main, .fingerprint⟩)

/-- A Jade that is found locked is let go once it is unlocked, and the next
cycle changes nothing. -/
theorem jade_stable_and_live :
    (∃ found unlocked,
      Run step Allowed (new .bitcoin) jadeFound found ∧
        found.step jadeUnlocks = some unlocked ∧
        unlocked.Released "jade-ttyACM0" 1) ∧
    ∃ settled next last,
      Run step Allowed (new .bitcoin) (jadeFound ++ [jadeUnlocks]) settled ∧
        Run step AnyStep settled
          (.cycle jadeBench.listing :: listens 9) next ∧
        next.step (.listen true) = some last ∧ next.SameMap last := by
  have locking :
      (follow (guarded Allowed step) (new .bitcoin) jadeFound).any (fun found =>
        found.devices["jade-ttyACM0"]? = some (.locked 1) ∧
          found.Allowed jadeUnlocks ∧
          (found.step jadeUnlocks).isSome = true) = true := by
    decide +kernel
  have settling :
      (follow (guarded Allowed step) (new .bitcoin)
        (jadeFound ++ [jadeUnlocks])).any (fun settled =>
          jadeBench.Settled settled ∧
            (follow
              (guarded
                (fun loop event => loop.Allowed event ∧ jadeBench.Keeps loop event)
                step)
              settled (.cycle jadeBench.listing :: listens 9)).any (fun next =>
                next.Allowed (.listen true) ∧
                  jadeBench.Keeps next (.listen true) ∧
                  (next.step (.listen true)).isSome = true) = true) = true := by
    decide +kernel
  obtain ⟨found, followed, facts⟩ := (Option.any_eq_true _ _).mp locking
  obtain ⟨locked, allowed, steps⟩ := of_decide_eq_true facts
  obtain ⟨unlocked, stepped⟩ := Option.isSome_iff_exists.mp steps
  have ran := Run.of_follow followed
  obtain ⟨settled, followed', facts'⟩ := (Option.any_eq_true _ _).mp settling
  obtain ⟨rests, continues⟩ := of_decide_eq_true facts'
  obtain ⟨next, followed'', facts''⟩ := (Option.any_eq_true _ _).mp continues
  obtain ⟨allowed', keeps, steps'⟩ := of_decide_eq_true facts''
  obtain ⟨last, stepped'⟩ := Option.isSome_iff_exists.mp steps'
  have ran' := Run.of_follow followed'
  have later := Run.of_follow followed''
  refine ⟨⟨found, unlocked, ran, stepped, ?_⟩, settled, next, last, ran',
    later.weaken fun _ _ _ => trivial, stepped', ?_⟩
  · exact (allowed_stable_and_live .bitcoin jadeFound found ran).2.2
      "jade-ttyACM0" 1 _ unlocked locked allowed stepped
  · exact (allowed_stable_and_live .bitcoin _ settled ran').1 jadeBench _ next
      (.listen true) last rests later allowed' keeps id stepped'

/-- The simulator of a Specter runs, and nothing is connected. -/
def simulatorBench : Bench where
  listing := ⟨some [], some [], [], [], []⟩
  opens _ _ := true
  reply
    | .simulator .specter, _ => .supported
    | _, _ => .notFound

def simulatorFound : List PollEvent :=
  .cycle simulatorBench.listing :: listens 9 ++
    [.answer 0 .supported, .answer 1 .notFound]

/-- A cycle over an unchanging bench can remove a simulator that still runs, and
a Jade whose unlock finds it locked again, or cannot read its fingerprint,
leaves a locked entry no task waits for. -/
theorem not_stable_and_live :
    (∃ settled next last,
      Run step AnyStep (new .bitcoin) simulatorFound settled ∧
        simulatorBench.Settled settled ∧
        Run step simulatorBench.Keeps settled
          (.cycle simulatorBench.listing :: listens 2) next ∧
        simulatorBench.Keeps next (.listen true) ∧
        next.step (.listen true) = some last ∧ ¬ next.SameMap last) ∧
    ∀ info ∈
        [GetInfoResponse.mk .locked .main .failed, ⟨.ready, .main, .failed⟩],
      ∃ loop,
        Run step AnyStep (new .bitcoin)
          (jadeFound ++ [.answer 1 (.info info)]) loop ∧
        ¬ loop.LockedOwned := by
  constructor
  · have settling :
        (follow (guarded AnyStep step) (new .bitcoin) simulatorFound).any
          (fun settled =>
            simulatorBench.Settled settled ∧
              (follow (guarded simulatorBench.Keeps step) settled
                (.cycle simulatorBench.listing :: listens 2)).any (fun next =>
                  simulatorBench.Keeps next (.listen true) ∧
                    (next.step (.listen true)).any (fun last =>
                      last.updates ≠ next.updates) = true) = true) = true := by
      decide +kernel
    obtain ⟨settled, followed, facts⟩ := (Option.any_eq_true _ _).mp settling
    obtain ⟨rests, continues⟩ := of_decide_eq_true facts
    obtain ⟨next, followed', facts'⟩ := (Option.any_eq_true _ _).mp continues
    obtain ⟨keeps, steps⟩ := of_decide_eq_true facts'
    obtain ⟨last, stepped, updated⟩ := (Option.any_eq_true _ _).mp steps
    refine ⟨settled, next, last, Run.of_follow followed, rests,
      Run.of_follow followed', keeps, stepped, fun same => ?_⟩
    exact of_decide_eq_true updated same.2
  · have leaving :
        ∀ info ∈
            [GetInfoResponse.mk .locked .main .failed,
              ⟨.ready, .main, .failed⟩],
          (follow (guarded AnyStep step) (new .bitcoin)
            (jadeFound ++ [.answer 1 (.info info)])).any (fun loop =>
              loop.devices["jade-ttyACM0"]? = some (.locked 1) ∧
                loop.isFinished 1 = true) = true := by
      decide +kernel
    intro info listed
    obtain ⟨loop, followed, facts⟩ :=
      (Option.any_eq_true _ _).mp (leaving info listed)
    obtain ⟨locked, finished⟩ := of_decide_eq_true facts
    refine ⟨loop, Run.of_follow followed, fun owned => ?_⟩
    obtain ⟨task, stood, _, unlocking⟩ := owned _ _ locked
    rw [isFinished, stood, Option.all_some, unlocking] at finished
    cases finished

end PollLoop

end Bwk.Hwi
