import Bwk.TxStore

namespace Bwk.Electrum

/-!
# The Electrum client's listener loop

`electrum/src/client/listener.rs`: one loop serves the coin and the header
listener.  Requests are numbered as they are dispatched and kept in an index,
by which the client tells what a response answers.  The server may answer in
any order, more than once, or under a number that was never asked.
-/

/-- What a request asks for; a script goes over the wire as its hash. -/
inductive Method where
  | ping
  | scriptHashSubscribe (spk : ScriptBuf)
  | scriptHashGetHistory (spk : ScriptBuf)
  | transactionGet (txid : Txid)
  | transactionGetMerkle (txid : Txid) (height : Nat)
  | blockHeader (height : Nat)
  | headersSubscribe
  | blockHeaders (start count : Nat)
  deriving Repr, DecidableEq

structure Request where
  id : Nat
  method : Method
  deriving Repr, DecidableEq

abbrev ScriptHash := Nat

/-- The server refuses a request. -/
structure ErrorResponse where
  id : Nat
  code : Nat
  message : String
  deriving Repr, DecidableEq

/-- The result of a response, before its type is known. -/
inductive Body where
  | null
  | text (value : String)
  | history (rows : List (Txid × Int))
  | verboseTx
  | merkle (merkle : List String) (txPos : Nat)
  | header (height : Nat) (rawHeader : String)
  | headers (rawHeaders : String)
  | other
  deriving Repr, DecidableEq

/-- A message of the server, before it is told what it answers. -/
inductive RawResponse where
  | error (reason : ErrorResponse)
  | headersNotification (headers : List (Nat × String))
  | notification (sh : ScriptHash) (status : Option String)
  | result (id : Nat) (body : Body)
  deriving Repr, DecidableEq

/-- A message of the server. -/
inductive Response where
  | headerNotif (id height : Nat) (rawHeader : String)
  | batchHeaderNotif (headers : List (Nat × String))
  | shNotification (sh : ScriptHash) (status : Option String)
  | ping (id : Nat)
  | header (id : Nat) (rawHeader : String)
  | headers (id : Nat) (rawHeaders : String)
  | txGet (id : Nat) (rawTx : String)
  | txGetVerbose (id : Nat)
  | shSubscribe (id : Nat) (status : Option String)
  | shGetHistory (id : Nat) (history : List (Txid × Int))
  | txGetMerkle (id : Nat) (merkle : List String) (txPos : Nat)
  | error (reason : ErrorResponse)
  deriving Repr, DecidableEq

/-- The number of the request a response answers; a notification has none. -/
def Response.id : Response → Option Nat
  | .headerNotif .. | .batchHeaderNotif _ | .shNotification .. => none
  | .ping id | .header id _ | .headers id _ | .txGet id _ | .txGetVerbose id
  | .shSubscribe id _ | .shGetHistory id _ | .txGetMerkle id _ _ => some id
  | .error reason => some reason.id

/-- Read the result of a request; its method says what the result must be. -/
def Response.ofResult (id : Nat) (method : Method) (body : Body) :
    Option Response :=
  match method, body with
  | .ping, .null | .ping, .text _ => some (.ping id)
  | .scriptHashSubscribe _, .null => some (.shSubscribe id none)
  | .scriptHashSubscribe _, .text status =>
      some (.shSubscribe id (some status))
  | .scriptHashGetHistory _, .history rows => some (.shGetHistory id rows)
  | .transactionGet _, .text rawTx => some (.txGet id rawTx)
  | .transactionGet _, .verboseTx => some (.txGetVerbose id)
  | .transactionGetMerkle _ _, .merkle merkle txPos =>
      some (.txGetMerkle id merkle txPos)
  | .blockHeader _, .text rawHeader => some (.header id rawHeader)
  | .headersSubscribe, .header height rawHeader =>
      some (.headerNotif id height rawHeader)
  | .blockHeaders _ _, .headers rawHeaders => some (.headers id rawHeaders)
  | _, _ => none

/-- Tell what a message answers; a result under an unknown number is refused. -/
def Response.tryParse (index : BTreeMap Nat Request) :
    RawResponse → Option Response
  | .error reason => some (.error reason)
  | .headersNotification notified => some (.batchHeaderNotif notified)
  | .notification sh status => some (.shNotification sh status)
  | .result id body =>
      match index[id]? with
      | none => none
      | some request => Response.ofResult id request.method body

/-- Read one batch of messages; one that is refused spoils the batch. -/
def parseStrResponse
    (index : BTreeMap Nat Request)
    (batch : List RawResponse) : Option (List Response) :=
  batch.mapM (Response.tryParse index)

structure Client where
  index : BTreeMap Nat Request
  lastId : Nat

/-- A client that has asked nothing. -/
def Client.fresh : Client where
  index := ∅
  lastId := 0

/-- Number a request and keep it. -/
def Client.register (client : Client) (method : Method) : Client × Request :=
  let request : Request := ⟨client.lastId + 1, method⟩
  (⟨client.index.insert request.id request, request.id⟩, request)

/-- Outcome of dispatching one consumer request. -/
inductive Dispatch where
  | sent (batch : List Request)
  | empty
  | terminate
  deriving Repr, DecidableEq

/-- What a listener puts into the loop. -/
structure Protocol (State Req Rsp : Type) where
  /-- Whether the batch gets through is decided outside. -/
  dispatch :
    Bool → Client → State → Req → Client × State × List Rsp × Dispatch
  handle : State → List Response → State × List Rsp
  transportErr : Rsp

/-- The loop's variables, and what it has sent to the consumer. -/
structure RunListener (State Req Rsp : Type) where
  client : Client
  state : State
  /-- The batch of requests still awaiting a response. -/
  lastRequest : Option (List Request)
  inbox : List Req
  emitted : List Rsp
  running : Bool

/-- What happens next to the loop. -/
inductive ListenerEvent (Req : Type) where
  | ping (sent : Bool)
  /-- A batch that was not answered in time is sent again. -/
  | resend
  | request (rq : Req)
  /-- The consumer is gone. -/
  | disconnect
  | dispatch (sent : Bool)
  | read (batch : List RawResponse)
  | readError

namespace RunListener

variable {State Req Rsp : Type}

/-- Tell the consumer and end. -/
def fail
    (listener : RunListener State Req Rsp)
    (reason : Rsp) : RunListener State Req Rsp :=
  { listener with
    emitted := listener.emitted ++ [reason]
    running := false }

/-- The pending batch without the requests that are answered. -/
def stillPending
    (lastRequest : Option (List Request))
    (responses : List Response) : Option (List Request) :=
  match lastRequest with
  | none => none
  | some requests =>
      let answered := responses.filterMap Response.id
      let left := requests.filter (fun request => request.id ∉ answered)
      if left = [] then none else some left

def dispatchNext
    (protocol : Protocol State Req Rsp)
    (listener : RunListener State Req Rsp)
    (sent : Bool) : RunListener State Req Rsp :=
  match listener.lastRequest, listener.inbox with
  | none, rq :: rest =>
      let (client, state, out, dispatched) :=
        protocol.dispatch sent listener.client listener.state rq
      { client := client
        state := state
        lastRequest :=
          match dispatched with
          | .sent batch => some batch
          | .empty | .terminate => none
        inbox := rest
        emitted := listener.emitted ++ out
        running := dispatched ≠ .terminate }
  | _, _ => listener

/-- Handle one batch of messages of the server. -/
def read
    (protocol : Protocol State Req Rsp)
    (listener : RunListener State Req Rsp)
    (batch : List RawResponse) : RunListener State Req Rsp :=
  match parseStrResponse listener.client.index batch with
  | none => listener.fail protocol.transportErr
  | some responses =>
      let (state, out) := protocol.handle listener.state responses
      { listener with
        state := state
        lastRequest := stillPending listener.lastRequest responses
        emitted := listener.emitted ++ out }

/-- One event of the loop; a listener that has ended stays as it is. -/
def step
    (protocol : Protocol State Req Rsp)
    (listener : RunListener State Req Rsp)
    (event : ListenerEvent Req) : RunListener State Req Rsp :=
  if listener.running then
    match event with
    | .ping sent =>
        let pinged :=
          { listener with client := (listener.client.register .ping).1 }
        if sent then pinged else pinged.fail protocol.transportErr
    | .resend => listener
    | .request rq => { listener with inbox := listener.inbox ++ [rq] }
    | .disconnect => { listener with running := false }
    | .dispatch sent => listener.dispatchNext protocol sent
    | .read batch => listener.read protocol batch
    | .readError => listener.fail protocol.transportErr
  else
    listener

/-- A listener about to enter the loop. -/
def start (state : State) : RunListener State Req Rsp where
  client := Client.fresh
  state := state
  lastRequest := none
  inbox := []
  emitted := []
  running := true

end RunListener

end Bwk.Electrum
