import Bwk.Transitions
import Bwk.TxStore

namespace Bwk.P2p

/-!
# The peer-to-peer client

One connection of `p2p/src/client.rs`.  A thread reads what the peer sends and
queues the blocks, addresses and requests; the calls of the client take turns
polling that one queue until their timeout.
-/

/-- `bitcoin::p2p::message_blockdata::Inventory`. -/
inductive Inventory where
  | error
  | transaction (txid : Txid)
  | block (hash : BlockHash)
  | compactBlock (hash : BlockHash)
  | wTx (wtxid : Nat)
  | witnessTransaction (txid : Txid)
  | witnessBlock (hash : BlockHash)
  | unknown (invType : UInt32) (hash : Nat)
  deriving Repr, DecidableEq

/-- The messages that the client reads or writes. -/
inductive NetworkMessage (Block Address : Type) where
  | ping (nonce : UInt64)
  | pong (nonce : UInt64)
  | block (block : Block)
  | addr (addresses : List (UInt32 × Address))
  | getAddr
  | getData (inventory : List Inventory)
  | inv (inventory : List Inventory)
  | tx (tx : Transaction)
  /-- Any other message. -/
  | other

/-- What the client uses of the `bitcoin` crate. -/
structure PeerCrate (Block Address SocketAddr : Type) where
  blockHash : Block → BlockHash
  computeTxid : Transaction → Txid
  socketAddr : Address → Option SocketAddr

inductive Call where
  | getBlock (blockHash : BlockHash)
  | getAddr
  | broadcastTx (tx : Transaction)

/-- `p2p::Error`, as far as a connected client returns it. -/
inductive Error where
  | tcpConnect
  | notConnected
  | stopped
  | timeout
  deriving Repr, DecidableEq

inductive Returned (Block SocketAddr : Type) where
  | getBlock (blockHash : BlockHash) (answer : Except Error (Option Block))
  | getAddr (answer : Except Error (Option (List SocketAddr)))
  | broadcastTx (tx : Transaction) (answer : Except Error Unit)
  | panicked

/-- A queued message. -/
structure Arrival (Block Address : Type) where
  message : NetworkMessage Block Address
  /-- The broadcast that was waiting for it when it arrived, by its number. -/
  wantedBy : Option Nat

variable {Block Address SocketAddr : Type}

/-- A connected client, its listener, and what has gone over the wire. -/
structure Client (Block Address SocketAddr : Type) where
  /-- `stream.is_some()`. -/
  stream : Bool
  /-- The listener has died while it held the lock of the stream. -/
  poisoned : Bool
  receiver : List (Arrival Block Address)
  stop : Bool
  /-- The listener has not returned. -/
  listening : Bool
  /-- The call that is waiting. -/
  call : Option Call
  /-- The waiting call is between its poll and its look at `stop`. -/
  snoozing : Bool
  /-- How many calls have been made. -/
  calls : Nat
  /-- What has been written in full. -/
  sent : List (NetworkMessage Block Address)
  received : List (NetworkMessage Block Address)
  returned : List (Returned Block SocketAddr)
  /-- The messages that arrived for one call and were taken by another. -/
  lost : List (NetworkMessage Block Address)

/-- A client after `connect`. -/
def connected : Client Block Address SocketAddr where
  stream := true
  poisoned := false
  receiver := []
  stop := false
  listening := true
  call := none
  snoozing := false
  calls := 0
  sent := []
  received := []
  returned := []
  lost := []

/-- What a reading of the clock says of the waiting call. -/
inductive Clock where
  | within
  | late
  /-- Earlier than the start of the call. -/
  | backwards
  deriving Repr, DecidableEq

/-- What can happen to a client. -/
inductive Event (Block Address : Type) where
  /-- The peer sends a message; the answer of the listener, if it makes one, is
  written or not. -/
  | message (message : NetworkMessage Block Address) (written : Bool)
  | decodeError
  /-- A call is made, and what it starts with is written or not. -/
  | call (call : Call) (written : Bool)
  /-- The waiting call polls the queue; what it answers is written or not. -/
  | poll (clock : Clock) (written : Bool)
  /-- The waiting call looks at `stop`. -/
  | wake
  | stop

namespace Client

def write
    (client : Client Block Address SocketAddr)
    (message : NetworkMessage Block Address)
    (written : Bool) : Client Block Address SocketAddr :=
  if written then { client with sent := client.sent ++ [message] } else client

/-- Return from the waiting call. -/
def answer
    (client : Client Block Address SocketAddr)
    (returned : Returned Block SocketAddr) :
    Client Block Address SocketAddr :=
  { client with
    call := none
    snoozing := false
    returned := client.returned ++ [returned] }

/-- The test of `broadcast_tx` on a request. -/
def requests (inventory : List Inventory) (txid : Txid) : Bool :=
  inventory.any fun
    | .transaction id => id = txid
    | .witnessTransaction id => id = txid
    | _ => false

/-- The number of the waiting call, when it is a broadcast that the message
requests. -/
def wantedBy
    (crate : PeerCrate Block Address SocketAddr)
    (client : Client Block Address SocketAddr)
    (message : NetworkMessage Block Address) : Option Nat :=
  match client.call, message with
  | some (.broadcastTx tx), .getData inventory =>
      if requests inventory (crate.computeTxid tx) then
        some client.calls
      else
        none
  | _, _ => none

/-- `sender.send`. -/
def send
    (crate : PeerCrate Block Address SocketAddr)
    (client : Client Block Address SocketAddr)
    (message : NetworkMessage Block Address) :
    Client Block Address SocketAddr :=
  { client with
    receiver := client.receiver ++ [⟨message, client.wantedBy crate message⟩] }

def handle
    (crate : PeerCrate Block Address SocketAddr)
    (client : Client Block Address SocketAddr)
    (written : Bool) :
    NetworkMessage Block Address → Client Block Address SocketAddr
  | .ping nonce =>
      if written then
        client.write (.pong nonce) true
      else
        -- The listener unwraps the failed write with the lock held.
        { client with poisoned := true, listening := false }
  | .block block => client.send crate (.block block)
  | .addr addresses => client.send crate (.addr addresses)
  | .getData inventory => client.send crate (.getData inventory)
  | _ => client

/-- One round of `listen` with a message: it is handled, and the listener
returns when it has been stopped. -/
def listen
    (crate : PeerCrate Block Address SocketAddr)
    (client : Client Block Address SocketAddr)
    (message : NetworkMessage Block Address)
    (written : Bool) : Client Block Address SocketAddr :=
  let handled :=
    { client with received := client.received ++ [message] }.handle crate
      written message
  { handled with listening := handled.listening && !handled.stop }

def request
    (crate : PeerCrate Block Address SocketAddr) :
    Call → NetworkMessage Block Address
  | .getBlock blockHash => .getData [.block blockHash]
  | .getAddr => .getAddr
  | .broadcastTx tx => .inv [.transaction (crate.computeTxid tx)]

def refused (error : Error) : Call → Returned Block SocketAddr
  | .getBlock blockHash => .getBlock blockHash (.error error)
  | .getAddr => .getAddr (.error error)
  | .broadcastTx tx => .broadcastTx tx (.error error)

/-- The call up to its loop: only a broadcast looks at whether its message was
written. -/
def begin
    (crate : PeerCrate Block Address SocketAddr)
    (client : Client Block Address SocketAddr)
    (call : Call)
    (written : Bool) : Client Block Address SocketAddr :=
  let made := { client with calls := client.calls + 1 }
  if client.stream = false then
    made.answer (refused .notConnected call)
  else if client.poisoned then
    made.answer .panicked
  else
    let asked := made.write (request crate call) written
    match call, written with
    | .broadcastTx tx, false =>
        asked.answer (.broadcastTx tx (.error .tcpConnect))
    | _, _ => { asked with call := some call, snoozing := false }

/-- Take the first message of the queue. -/
def tryRecv (client : Client Block Address SocketAddr) :
    Option (NetworkMessage Block Address) × Client Block Address SocketAddr :=
  match client.receiver with
  | [] => (none, client)
  | arrival :: rest =>
      (some arrival.message, { client with
        receiver := rest
        lost :=
          if arrival.wantedBy.any (· ≠ client.calls) then
            client.lost ++ [arrival.message]
          else
            client.lost })

/-- The end of a poll that has not answered the call: the timeout, or a snooze
before the next look at `stop`. -/
def tick
    (late : Returned Block SocketAddr)
    (clock : Clock)
    (client : Client Block Address SocketAddr) :
    Client Block Address SocketAddr :=
  match clock with
  | .within => { client with snoozing := true }
  | .late => client.answer late
  | .backwards => client.answer .panicked

/-- A poll of the loop of `get_block` and `get_addr`: a message of another kind
is dropped. -/
def pollFor
    (accept :
      NetworkMessage Block Address → Option (Returned Block SocketAddr))
    (late : Returned Block SocketAddr)
    (clock : Clock)
    (client : Client Block Address SocketAddr) :
    Client Block Address SocketAddr :=
  match client.tryRecv with
  | (some message, next) =>
      match accept message with
      | some returned => next.answer returned
      | none => next.tick late clock
  | (none, next) => next.tick late clock

/-- A block answers `get_block`. -/
def acceptBlock (blockHash : BlockHash) :
    NetworkMessage Block Address → Option (Returned Block SocketAddr)
  | .block block => some (.getBlock blockHash (.ok (some block)))
  | _ => none

/-- Addresses answer `get_addr`. -/
def acceptAddr (crate : PeerCrate Block Address SocketAddr) :
    NetworkMessage Block Address → Option (Returned Block SocketAddr)
  | .addr addresses =>
      some (.getAddr (.ok (some
        (addresses.filterMap (fun address => crate.socketAddr address.2)))))
  | _ => none

/-- A poll of the loop of `broadcast_tx`. -/
def pollBroadcast
    (crate : PeerCrate Block Address SocketAddr)
    (tx : Transaction)
    (clock : Clock)
    (written : Bool)
    (client : Client Block Address SocketAddr) :
    Client Block Address SocketAddr :=
  match client.tryRecv with
  | (some (.getData inventory), next) =>
      if requests inventory (crate.computeTxid tx) then
        if next.poisoned then
          next.answer .panicked
        else if written then
          (next.write (.tx tx) true).answer (.broadcastTx tx (.ok ()))
        else
          next.answer (.broadcastTx tx (.error .tcpConnect))
      else
        next.tick (.broadcastTx tx (.error .timeout)) clock
  | (_, next) => next.tick (.broadcastTx tx (.error .timeout)) clock

def poll
    (crate : PeerCrate Block Address SocketAddr)
    (client : Client Block Address SocketAddr)
    (clock : Clock)
    (written : Bool) : Call → Client Block Address SocketAddr
  | .getBlock blockHash =>
      client.pollFor (acceptBlock blockHash)
        (.getBlock blockHash (.ok none)) clock
  | .getAddr => client.pollFor (acceptAddr crate) (.getAddr (.ok none)) clock
  | .broadcastTx tx => client.pollBroadcast crate tx clock written

/-- The waiting call looks at `stop`. -/
def wake (client : Client Block Address SocketAddr) (call : Call) :
    Client Block Address SocketAddr :=
  if client.stop then
    client.answer (refused .stopped call)
  else
    { client with snoozing := false }

/--
A step of the client: it is `&mut`, so that no call is made and no `stop` while
one is waiting.
-/
def step
    (crate : PeerCrate Block Address SocketAddr)
    (client : Client Block Address SocketAddr) :
    Event Block Address → Option (Client Block Address SocketAddr)
  | .message message written =>
      if client.listening then
        some (client.listen crate message written)
      else
        none
  | .decodeError =>
      if client.listening then
        some { client with stop := true, listening := false }
      else
        none
  | .call call written =>
      match client.call with
      | none => some (client.begin crate call written)
      | some _ => none
  | .poll clock written =>
      match client.call, client.snoozing with
      | some call, false => some (client.poll crate clock written call)
      | _, _ => none
  | .wake =>
      match client.call, client.snoozing with
      | some call, true => some (client.wake call)
      | _, _ => none
  | .stop =>
      match client.call with
      | none => some { client with stream := false, stop := true }
      | some _ => none

def firstBlock (receiver : List (Arrival Block Address)) : Option Block :=
  receiver.findSome? fun arrival =>
    match arrival.message with
    | .block block => some block
    | _ => none

/--
Each answer belongs to the call that asked: the block is the one asked for, a
transaction was requested and written, and no request for an announced
transaction went to another call.
-/
structure AnswersOwn
    (crate : PeerCrate Block Address SocketAddr)
    (client : Client Block Address SocketAddr) : Prop where
  blocks :
    ∀ blockHash block,
      .getBlock blockHash (.ok (some block)) ∈ client.returned →
        crate.blockHash block = blockHash
  broadcasts :
    ∀ tx, .broadcastTx tx (.ok ()) ∈ client.returned →
      (∃ inventory, .getData inventory ∈ client.received ∧
        requests inventory (crate.computeTxid tx) = true) ∧
      .tx tx ∈ client.sent
  kept : client.lost = []

def Asked (crate : PeerCrate Block Address SocketAddr) :
    Option Call → Block → Prop
  | some (.getBlock blockHash), block => crate.blockHash block = blockHash
  | _, _ => True

instance (crate : PeerCrate Block Address SocketAddr) :
    DecidableRel (Asked crate) := by
  intro call block
  unfold Asked
  split <;> infer_instance

/--
The peer is not late: a call starts with no request left for an earlier
broadcast and `get_block` with no other block at the front of the queue, and
while `get_block` waits the next block that arrives is its own.
-/
def Punctual
    (crate : PeerCrate Block Address SocketAddr)
    (client : Client Block Address SocketAddr) :
    Event Block Address → Prop
  | .call call _ =>
      (∀ arrival ∈ client.receiver, arrival.wantedBy = none) ∧
        ∀ block ∈ firstBlock client.receiver, Asked crate (some call) block
  | .message (.block block) _ =>
      (firstBlock client.receiver).isNone → Asked crate client.call block
  | _ => True

instance (crate : PeerCrate Block Address SocketAddr) :
    DecidableRel (Punctual crate) := by
  intro client event
  unfold Punctual
  split <;> infer_instance

/-- What holds between the steps of a poll. -/
structure Sorted
    (crate : PeerCrate Block Address SocketAddr)
    (client : Client Block Address SocketAddr) : Prop where
  answers : AnswersOwn crate client
  /-- What is queued for a broadcast is queued for the waiting one. -/
  ownRequests :
    client.call.isSome → ∀ arrival ∈ client.receiver, ∀ number,
      arrival.wantedBy = some number → number = client.calls
  wereReceived :
    ∀ arrival ∈ client.receiver, arrival.message ∈ client.received

/-- While `get_block` waits, the next block is its own. -/
def NextOwn
    (crate : PeerCrate Block Address SocketAddr)
    (client : Client Block Address SocketAddr) : Prop :=
  ∀ block ∈ firstBlock client.receiver, Asked crate client.call block

structure Owned
    (crate : PeerCrate Block Address SocketAddr)
    (client : Client Block Address SocketAddr)
    (returned : Returned Block SocketAddr) : Prop where
  block :
    ∀ blockHash block, returned = .getBlock blockHash (.ok (some block)) →
      crate.blockHash block = blockHash
  broadcast :
    ∀ tx, returned = .broadcastTx tx (.ok ()) →
      (∃ inventory, .getData inventory ∈ client.received ∧
        requests inventory (crate.computeTxid tx) = true) ∧
      .tx tx ∈ client.sent

section Steps

variable {crate : PeerCrate Block Address SocketAddr}
variable {client : Client Block Address SocketAddr}

theorem AnswersOwn.grow
    (answers : AnswersOwn crate client)
    {other : Client Block Address SocketAddr}
    (returned : other.returned = client.returned)
    (received : client.received ⊆ other.received)
    (sent : client.sent ⊆ other.sent)
    (lost : other.lost = client.lost) :
    AnswersOwn crate other where
  blocks blockHash block member :=
    answers.blocks blockHash block (returned ▸ member)
  broadcasts tx member := by
    obtain ⟨⟨inventory, asked, found⟩, written⟩ :=
      answers.broadcasts tx (returned ▸ member)
    exact ⟨⟨inventory, received asked, found⟩, sent written⟩
  kept := lost.trans answers.kept

theorem owned_refused (error : Error) (call : Call) :
    Owned crate client (refused error call) := by
  cases call <;> exact ⟨by simp [refused], by simp [refused]⟩

theorem sorted_answer
    (sorted : Sorted crate client)
    {returned : Returned Block SocketAddr}
    (owned : Owned crate client returned) :
    Sorted crate (client.answer returned) ∧
      NextOwn crate (client.answer returned) := by
  refine ⟨{ answers := ?_, ownRequests := ?_, wereReceived := ?_ }, ?_⟩
  · refine { blocks := ?_, broadcasts := ?_, kept := sorted.answers.kept }
    · intro blockHash block member
      obtain old | new := List.mem_append.mp member
      · exact sorted.answers.blocks blockHash block old
      · exact owned.block blockHash block (List.mem_singleton.mp new).symm
    · intro tx member
      obtain old | new := List.mem_append.mp member
      · exact sorted.answers.broadcasts tx old
      · exact owned.broadcast tx (List.mem_singleton.mp new).symm
  · intro waits
    cases waits
  · exact sorted.wereReceived
  · intro block _
    trivial

theorem sorted_write
    (sorted : Sorted crate client)
    (message : NetworkMessage Block Address)
    (written : Bool) :
    Sorted crate (client.write message written) := by
  unfold write
  split
  · exact {
      answers := sorted.answers.grow rfl (List.Subset.refl _)
        (List.subset_append_left _ _) rfl
      ownRequests := sorted.ownRequests
      wereReceived := sorted.wereReceived
    }
  · exact sorted

theorem sorted_tryRecv
    (sorted : Sorted crate client)
    (waits : client.call.isSome) :
    Sorted crate client.tryRecv.2 ∧ client.tryRecv.2.call = client.call ∧
      ∀ message ∈ client.tryRecv.1,
        message ∈ client.tryRecv.2.received := by
  rw [tryRecv]
  split
  · exact ⟨sorted, rfl, by simp⟩
  · rename_i arrival rest queue
    have member : arrival ∈ client.receiver := by
      rw [queue]
      exact List.mem_cons_self
    have own : arrival.wantedBy.any (· ≠ client.calls) = false := by
      cases wanted : arrival.wantedBy with
      | none =>
          rfl
      | some number =>
          simp [sorted.ownRequests waits arrival member number wanted]
    have later (other : Arrival Block Address) (inRest : other ∈ rest) :
        other ∈ client.receiver := by
      rw [queue]
      exact List.mem_cons_of_mem _ inRest
    refine ⟨?_, rfl, ?_⟩
    · simp only [own, Bool.false_eq_true, if_false]
      exact {
        answers := sorted.answers.grow rfl (List.Subset.refl _)
          (List.Subset.refl _) rfl
        ownRequests := fun _ other inRest =>
          sorted.ownRequests waits other (later other inRest)
        wereReceived := fun other inRest =>
          sorted.wereReceived other (later other inRest)
      }
    · intro message taken
      rw [Option.mem_some_iff] at taken
      rw [← taken]
      exact sorted.wereReceived arrival member

theorem nextOwn_tryRecv (nextOwn : NextOwn crate client) :
    (∀ block, client.tryRecv.1 = some (.block block) →
      Asked crate client.call block) ∧
      ((∀ block, client.tryRecv.1 ≠ some (.block block)) →
        NextOwn crate client.tryRecv.2) := by
  rw [tryRecv]
  split
  · exact ⟨by simp, fun _ => nextOwn⟩
  · rename_i arrival rest queue
    rw [NextOwn, queue] at nextOwn
    constructor
    · intro block taken
      rw [Option.some_inj] at taken
      apply nextOwn
      simp [firstBlock, taken]
    · intro other block first
      apply nextOwn
      cases message : arrival.message with
      | block taken =>
          exact absurd (congrArg some message) (other taken)
      | ping | pong | addr | getAddr | getData | inv | tx | other =>
          simp only [firstBlock, List.findSome?_cons, message]
          exact first

variable {message : NetworkMessage Block Address} {call : Call}
variable {late : Returned Block SocketAddr}

theorem sorted_tick
    (sorted : Sorted crate client)
    (nextOwn : NextOwn crate client)
    (owned : Owned crate client late)
    (clock : Clock) :
    Sorted crate (client.tick late clock) ∧
      NextOwn crate (client.tick late clock) := by
  cases clock with
  | within =>
      refine ⟨⟨?_, sorted.ownRequests, sorted.wereReceived⟩, nextOwn⟩
      exact sorted.answers.grow rfl (List.Subset.refl _)
        (List.Subset.refl _) rfl
  | late =>
      exact sorted_answer sorted owned
  | backwards =>
      exact sorted_answer sorted ⟨by simp, by simp⟩

theorem sorted_pollFor
    (sorted : Sorted crate client)
    (nextOwn : NextOwn crate client)
    (waits : client.call.isSome)
    {accept :
      NetworkMessage Block Address → Option (Returned Block SocketAddr)}
    (dropped :
      ∀ block, accept (.block block) = none →
        ∀ next, Asked crate client.call next)
    (owned :
      ∀ message returned, client.tryRecv.1 = some message →
        accept message = some returned →
          Owned crate client.tryRecv.2 returned)
    (ownedLate : Owned crate client.tryRecv.2 late)
    (clock : Clock) :
    Sorted crate (client.pollFor accept late clock) ∧
      NextOwn crate (client.pollFor accept late clock) := by
  obtain ⟨sortedNext, sameCall, -⟩ := sorted_tryRecv sorted waits
  obtain ⟨-, nextOwn⟩ := nextOwn_tryRecv nextOwn
  rw [pollFor]
  cases taken : client.tryRecv with
  | mk message next =>
      simp only [taken] at sortedNext sameCall nextOwn owned ownedLate
      cases message with
      | none =>
          exact sorted_tick sortedNext (nextOwn (by simp)) ownedLate clock
      | some message =>
          dsimp only
          cases accepted : accept message with
          | some returned =>
              exact sorted_answer sortedNext (owned message returned rfl
                accepted)
          | none =>
              refine sorted_tick sortedNext ?_ ownedLate clock
              cases message with
              | block block =>
                  intro next _
                  rw [sameCall]
                  exact dropped block accepted next
              | ping | pong | addr | getAddr | getData | inv | tx | other =>
                  exact nextOwn (by simp)

theorem sorted_poll
    (sorted : Sorted crate client)
    (nextOwn : NextOwn crate client)
    (waiting : client.call = some call)
    (clock : Clock)
    (written : Bool) :
    Sorted crate (client.poll crate clock written call) ∧
      NextOwn crate (client.poll crate clock written call) := by
  have waits : client.call.isSome := by
    rw [waiting]
    rfl
  cases call with
  | getBlock blockHash =>
      refine sorted_pollFor sorted nextOwn waits ?_ ?_ ⟨by simp, by simp⟩
        clock
      · intro block ignored
        cases ignored
      · intro message returned taken accepted
        cases message with
        | block block =>
            cases accepted
            refine ⟨?_, by simp⟩
            rintro asked found same
            cases same
            have own := (nextOwn_tryRecv nextOwn).1 block taken
            rw [waiting] at own
            exact own
        | ping | pong | addr | getAddr | getData | inv | tx | other =>
            cases accepted
  | getAddr =>
      refine sorted_pollFor sorted nextOwn waits ?_ ?_ ⟨by simp, by simp⟩
        clock
      · intro _ _ next
        rw [waiting]
        trivial
      · intro message returned taken accepted
        cases message with
        | addr addresses =>
            cases accepted
            exact ⟨by simp, by simp⟩
        | ping | pong | block | getAddr | getData | inv | tx | other =>
            cases accepted
  | broadcastTx tx =>
      obtain ⟨sortedNext, sameCall, wasReceived⟩ :=
        sorted_tryRecv sorted waits
      rw [poll, pollBroadcast]
      cases taken : client.tryRecv with
      | mk message next =>
          simp only [taken] at sortedNext sameCall wasReceived
          have nextOwn : NextOwn crate next := by
            intro block _
            rw [sameCall, waiting]
            trivial
          have later :=
            sorted_tick sortedNext nextOwn
              (owned_refused .timeout (.broadcastTx tx)) clock
          split
          · rename_i inventory next' same
            cases same
            split
            · rename_i found
              split
              · exact sorted_answer sortedNext ⟨by simp, by simp⟩
              · split
                · refine sorted_answer (sorted_write sortedNext _ _)
                    ⟨by simp, ?_⟩
                  intro other same
                  cases same
                  refine ⟨⟨inventory, wasReceived _ rfl, found⟩, ?_⟩
                  simp [write]
                · exact sorted_answer sortedNext
                    (owned_refused .tcpConnect (.broadcastTx tx))
            · exact later
          · rename_i message' next' notGetData same
            cases same
            exact later

theorem sorted_send
    (sorted : Sorted crate client)
    (received : message ∈ client.received) :
    Sorted crate (client.send crate message) where
  answers :=
    sorted.answers.grow rfl (List.Subset.refl _) (List.Subset.refl _) rfl
  ownRequests := by
    intro waits arrival member number wanted
    obtain old | new := List.mem_append.mp member
    · exact sorted.ownRequests waits arrival old number wanted
    · rw [List.mem_singleton.mp new] at wanted
      simp only [wantedBy] at wanted
      split at wanted
      · split at wanted
        · exact (Option.some_inj.mp wanted).symm
        · cases wanted
      · cases wanted
  wereReceived := by
    intro arrival member
    obtain old | new := List.mem_append.mp member
    · exact sorted.wereReceived arrival old
    · rw [List.mem_singleton.mp new]
      exact received

theorem nextOwn_send
    (nextOwn : NextOwn crate client)
    (own :
      ∀ block, message = .block block →
        (firstBlock client.receiver).isNone →
          Asked crate client.call block) :
    NextOwn crate (client.send crate message) := by
  intro block first
  rw [send, firstBlock, List.findSome?_append] at first
  cases before : firstBlock client.receiver with
  | some earlier =>
      apply nextOwn
      rw [firstBlock] at before
      rw [before] at first
      rw [firstBlock, before]
      exact first
  | none =>
      rw [firstBlock] at before
      rw [before, Option.none_or, List.findSome?_singleton] at first
      cases message with
      | block sent =>
          cases first
          exact own block rfl (by rw [firstBlock, before]; rfl)
      | ping | pong | addr | getAddr | getData | inv | tx | other =>
          cases first

theorem sorted_listen
    (sorted : Sorted crate client)
    (nextOwn : NextOwn crate client)
    {written : Bool}
    (punctual : Punctual crate client (.message message written)) :
    Sorted crate (client.listen crate message written) ∧
      NextOwn crate (client.listen crate message written) := by
  have grown :
      Sorted crate
        { client with received := client.received ++ [message] } := {
    answers := sorted.answers.grow rfl (List.subset_append_left _ _)
      (List.Subset.refl _) rfl
    ownRequests := sorted.ownRequests
    wereReceived := fun arrival member =>
      List.mem_append_left _ (sorted.wereReceived arrival member)
  }
  have handled :
      Sorted crate
          ({ client with received := client.received ++ [message] }.handle
            crate written message) ∧
        NextOwn crate
          ({ client with received := client.received ++ [message] }.handle
            crate written message) := by
    cases message with
    | ping nonce =>
        rw [handle]
        split
        · exact ⟨sorted_write grown _ _, nextOwn⟩
        · refine ⟨⟨?_, grown.ownRequests, grown.wereReceived⟩, nextOwn⟩
          exact grown.answers.grow rfl (List.Subset.refl _)
            (List.Subset.refl _) rfl
    | block block =>
        refine ⟨sorted_send grown (by simp), nextOwn_send nextOwn ?_⟩
        intro other same first
        cases same
        exact punctual first
    | addr addresses | getData inventory =>
        exact ⟨sorted_send grown (by simp),
          nextOwn_send nextOwn (by simp)⟩
    | pong | getAddr | inv | tx | other =>
        exact ⟨grown, nextOwn⟩
  refine ⟨⟨?_, handled.1.ownRequests, handled.1.wereReceived⟩, handled.2⟩
  exact handled.1.answers.grow rfl (List.Subset.refl _)
    (List.Subset.refl _) rfl

theorem sorted_begin
    (sorted : Sorted crate client)
    {written : Bool}
    (punctual : Punctual crate client (.call call written)) :
    Sorted crate (client.begin crate call written) ∧
      NextOwn crate (client.begin crate call written) := by
  obtain ⟨nobodys, nextBlock⟩ := punctual
  have made (message : NetworkMessage Block Address) (sent : Bool) :
      Sorted crate
        ({ client with calls := client.calls + 1 }.write message sent) := by
    apply sorted_write
    refine ⟨?_, ?_, sorted.wereReceived⟩
    · exact sorted.answers.grow rfl (List.Subset.refl _)
        (List.Subset.refl _) rfl
    · intro _ arrival member number wanted
      rw [nobodys arrival member] at wanted
      cases wanted
  have unwritten := made .other false
  rw [begin]
  dsimp only
  split
  · exact sorted_answer unwritten (owned_refused .notConnected call)
  · split
    · exact sorted_answer unwritten ⟨by simp, by simp⟩
    · split
      · rename_i tx
        exact sorted_answer (made _ _)
          (owned_refused .tcpConnect (.broadcastTx tx))
      · refine ⟨⟨?_, ?_, (made _ _).wereReceived⟩, ?_⟩
        · exact (made _ _).answers.grow rfl (List.Subset.refl _)
            (List.Subset.refl _) rfl
        · intro _ arrival member number wanted
          have queued : arrival ∈ client.receiver := by
            cases written <;> exact member
          rw [nobodys arrival queued] at wanted
          cases wanted
        · intro block first
          refine nextBlock block ?_
          cases written <;> exact first

theorem sorted_step
    (sorted : Sorted crate client)
    (nextOwn : NextOwn crate client)
    {event : Event Block Address}
    (punctual : Punctual crate client event)
    {next : Client Block Address SocketAddr}
    (stepped : client.step crate event = some next) :
    Sorted crate next ∧ NextOwn crate next := by
  have other
      {changed : Client Block Address SocketAddr}
      (answers : AnswersOwn crate changed)
      (call : changed.call = client.call)
      (calls : changed.calls = client.calls)
      (receiver : changed.receiver = client.receiver)
      (received : changed.received = client.received) :
      Sorted crate changed ∧ NextOwn crate changed := by
    refine ⟨⟨answers, ?_, ?_⟩, ?_⟩
    · rw [call, calls, receiver]
      exact sorted.ownRequests
    · rw [receiver, received]
      exact sorted.wereReceived
    · rw [NextOwn, call, receiver]
      exact nextOwn
  have same
      {changed : Client Block Address SocketAddr}
      (returned : changed.returned = client.returned)
      (received : changed.received = client.received)
      (sent : changed.sent = client.sent)
      (lost : changed.lost = client.lost) :
      AnswersOwn crate changed :=
    sorted.answers.grow returned (received ▸ List.Subset.refl _)
      (sent ▸ List.Subset.refl _) lost
  cases event with
  | message message written =>
      simp only [step, Option.ite_none_right_eq_some] at stepped
      cases stepped.2
      exact sorted_listen sorted nextOwn punctual
  | decodeError =>
      simp only [step, Option.ite_none_right_eq_some] at stepped
      cases stepped.2
      exact other (same rfl rfl rfl rfl) rfl rfl rfl rfl
  | call call written =>
      simp only [step] at stepped
      split at stepped
      · cases stepped
        exact sorted_begin sorted punctual
      · cases stepped
  | poll clock written =>
      simp only [step] at stepped
      split at stepped
      · rename_i call waiting _
        cases stepped
        exact sorted_poll sorted nextOwn waiting clock written
      · cases stepped
  | wake =>
      simp only [step] at stepped
      split at stepped
      · rename_i call waiting _
        cases stepped
        rw [wake]
        split
        · exact sorted_answer sorted (owned_refused .stopped call)
        · exact other (same rfl rfl rfl rfl) rfl rfl rfl rfl
      · cases stepped
  | stop =>
      simp only [step] at stepped
      split at stepped
      · cases stepped
        exact other (same rfl rfl rfl rfl) rfl rfl rfl rfl
      · cases stepped

end Steps

theorem sorted_connected (crate : PeerCrate Block Address SocketAddr) :
    Sorted crate connected ∧ NextOwn crate connected := by
  refine ⟨⟨⟨?_, ?_, rfl⟩, ?_, ?_⟩, ?_⟩
  · intro blockHash block member
    cases member
  · intro tx member
    cases member
  · intro waits
    cases waits
  · intro arrival member
    cases member
  · intro block first
    cases first

/--
Whatever is called and whatever the peer sends in which order, each answer
belongs to the call that asked, when no call starts on what an earlier one
left and no unasked block comes first.
-/
theorem answersOwn_of_punctual
    (crate : PeerCrate Block Address SocketAddr)
    {events : List (Event Block Address)}
    {client : Client Block Address SocketAddr}
    (ran : Run (step crate) (Punctual crate) connected events client) :
    AnswersOwn crate client := by
  have held : Sorted crate client ∧ NextOwn crate client :=
    ran.invariant (fun client => Sorted crate client ∧ NextOwn crate client)
      (sorted_connected crate)
      (fun held may stepped => sorted_step held.1 held.2 may stepped)
  exact held.1.answers

/-- A stand-in for the crate: a block is its hash. -/
def sampleCrate : PeerCrate Nat Nat Nat where
  blockHash block := block
  computeTxid tx := tx.lockTime
  socketAddr address := some address

/-- A transaction with the id seven. -/
def sampleTx : Transaction where
  version := 2
  lockTime := 7
  input := []
  output := []

/-- A block and a transaction, each asked for and answered in time. -/
def sampleEvents : List (Event Nat Nat) :=
  [.call (.getBlock 5) true, .message (.block 5) true, .poll .within true,
    .call (.broadcastTx sampleTx) true,
    .message (.getData [.witnessTransaction 7]) true, .poll .within true]

/-- Both answers belong to their calls. -/
theorem answersOwn_sample :
    ∃ client,
      Run (step sampleCrate) (Punctual sampleCrate) connected sampleEvents
          client ∧
        client.returned.length = 2 ∧ AnswersOwn sampleCrate client := by
  have ran :
      Run (step sampleCrate) (Punctual sampleCrate) connected sampleEvents
        _ :=
    .of_follow rfl
  exact ⟨_, ran, rfl, answersOwn_of_punctual sampleCrate ran⟩

/--
A block that comes after its call has given up answers the next call, and a
request that comes between the last poll of a broadcast and its timeout is
taken by the next call.
-/
theorem late_answers :
    (∃ client,
      Run (step sampleCrate) AnyStep connected
          [.call (.getBlock 5) true, .poll .late true,
            .message (.block 5) true, .call (.getBlock 6) true,
            .poll .within true] client ∧
        ¬ ∀ blockHash block,
          .getBlock blockHash (.ok (some block)) ∈ client.returned →
            sampleCrate.blockHash block = blockHash) ∧
      ∃ client,
        Run (step sampleCrate) AnyStep connected
            [.call (.broadcastTx sampleTx) true, .message (.block 5) true,
              .message (.getData [.witnessTransaction 7]) true,
              .poll .late true, .call .getAddr true, .poll .within true]
            client ∧
          client.lost ≠ [] := by
  refine ⟨⟨_, .of_follow rfl, ?_⟩, ⟨_, .of_follow rfl, ?_⟩⟩
  · intro own
    have same := own 6 5 (.tail _ (.head _))
    exact absurd same (by decide)
  · intro kept
    cases kept

end Client

end Bwk.P2p
