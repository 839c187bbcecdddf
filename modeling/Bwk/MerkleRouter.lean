import Bwk.MerkleSlots

/-!
# The merkle router

Several wallets share one header store. Each lists fetches under its own
listener id, the router remembers who asked for what, and a client whose
forwarder runs under the token of the day answers. Calls are split at every
lock they take, so that another thread can come in between.
-/

namespace Bwk

/-- Addresses one wallet's reconciler. -/
abbrev ListenerId := Nat

/-- What the merkle client is asked. -/
inductive MerkleRequest where
  | getTxMerkle (claim : ClaimAt)
  | stop
  deriving Repr, DecidableEq

/-- Where `forward_merkle_proofs` stands. -/
inductive Forwarder where
  | forwarding
  /-- In `merkle_client_ended`, its token found to be the current one. -/
  | checked
  /-- In `merkle_client_ended`, every waiting fetch failed. -/
  | failed
  | done
  deriving Repr, DecidableEq

structure MerkleClient where
  token : Nat
  /-- The client's own thread has not returned. -/
  running : Bool
  /-- Requests not answered, oldest first; dropped when the thread returns. -/
  channel : List MerkleRequest
  /-- Answers not forwarded, oldest first. -/
  answers : List MerkleOutcome
  forwarder : Forwarder
  deriving Repr, DecidableEq

/-- What a call of `start`, `stop` or `restart` does, lock by lock. -/
inductive StoreAction where
  | failPending
  | takeRequest
  | bump
  | load
  | install (token : Nat)
  deriving Repr, DecidableEq

/-- The actions of `stop`. -/
def stopActions : List StoreAction :=
  [.failPending, .takeRequest]

/-- The actions of `spawn_worker` on a connection that could be made. -/
def spawnActions : List StoreAction :=
  [.load]

/-- The actions of `restart`. -/
def restartActions : List StoreAction :=
  stopActions ++ .bump :: spawnActions

/-- A reconciler and the outcomes queued towards it. -/
structure Wallet (Backend HeaderRows Raw : Type) where
  scan : Reconciler Backend HeaderRows Raw
  inbox : List MerkleOutcome

/-- The wallets, the router and the clients of one header store. -/
structure MerkleNet (Backend HeaderRows Raw : Type) where
  writerToken : Nat
  /-- Who asked for the fetches still waiting for an answer. -/
  pending : List (ClaimAt × ListenerId)
  /-- The client whose request sender is in place. -/
  merkleReq : Option Nat
  clients : List MerkleClient
  wallets : List (Wallet Backend HeaderRows Raw)
  /-- Fetches recorded and not sent yet. -/
  sending : List (ListenerId × ClaimAt)
  /-- What the calls under way have yet to do. -/
  calls : List (List StoreAction)

inductive NetStep (HeaderRows Raw : Type) where
  /-- A wallet scans, follows the chain or lists its fetches anew. -/
  | scan (wallet : ListenerId) (next : ScanStep HeaderRows Raw)
  /-- A reconciler handles the oldest outcome in its inbox. -/
  | receive (wallet : ListenerId)
  /-- The first half of `fetch_merkle`. -/
  | record (wallet : ListenerId) (claim : ClaimAt)
  /-- The second half of `fetch_merkle`. -/
  | send (wallet : ListenerId) (claim : ClaimAt)
  /-- The server answers the oldest request of a client. -/
  | answer (client : Nat) (outcome : MerkleOutcome)
  /-- A client returns, stopped or cut off. -/
  | hangUp (client : Nat)
  /-- A forwarder routes the oldest answer. -/
  | forward (client : Nat)
  /-- A forwarder sees its channel closed and checks its token. -/
  | drain (client : Nat)
  /-- A forwarder that is done fails what still waits. -/
  | failAll (client : Nat)
  /-- A forwarder that is done takes the request sender. -/
  | release (client : Nat)
  /-- A thread calls `start`, `stop` or `restart`. -/
  | start
  | stop
  | restart
  /-- A call under way takes its next action. -/
  | act (call : Nat)

namespace MerkleNet

variable {Backend HeaderRows Raw : Type}

/-- A store shared by wallets that have seen nothing, without a client. -/
def opened
    (wallets : List (Reconciler Backend HeaderRows Raw)) :
    MerkleNet Backend HeaderRows Raw where
  writerToken := 0
  pending := []
  merkleReq := none
  clients := []
  wallets := wallets.map (fun wallet => ⟨wallet, []⟩)
  sending := []
  calls := []

/-- Hand an outcome to whoever asked, or to everyone when nobody did. -/
def deliver
    (net : MerkleNet Backend HeaderRows Raw)
    (outcome : MerkleOutcome) : MerkleNet Backend HeaderRows Raw :=
  let asked := net.pending.any (fun entry => entry.1 = outcome.claim)
  { net with
    pending := net.pending.filter (fun entry => entry.1 ≠ outcome.claim)
    wallets :=
      net.wallets.mapIdx (fun listener wallet =>
        if !asked || (outcome.claim, listener) ∈ net.pending then
          { wallet with inbox := wallet.inbox ++ [outcome] }
        else
          wallet) }

/-- End every fetch still waiting for an answer. -/
def failPending
    (net : MerkleNet Backend HeaderRows Raw) :
    MerkleNet Backend HeaderRows Raw :=
  { net with
    pending := []
    wallets :=
      net.wallets.mapIdx (fun listener wallet =>
        { wallet with
          inbox :=
            wallet.inbox ++
              (net.pending.filter (fun entry => entry.2 = listener)).map
                (fun entry => .failed entry.1.txid entry.1.height) }) }

def withClient
    (net : MerkleNet Backend HeaderRows Raw)
    (client : Nat)
    (change : MerkleClient → MerkleClient) :
    MerkleNet Backend HeaderRows Raw :=
  { net with clients := net.clients.modify client change }

def withWallet
    (net : MerkleNet Backend HeaderRows Raw)
    (listener : ListenerId)
    (change :
      Wallet Backend HeaderRows Raw → Wallet Backend HeaderRows Raw) :
    MerkleNet Backend HeaderRows Raw :=
  { net with wallets := net.wallets.modify listener change }

/-- Remember who asks for a fetch the wallet has listed. -/
def record
    (net : MerkleNet Backend HeaderRows Raw)
    (listener : ListenerId)
    (claim : ClaimAt) : MerkleNet Backend HeaderRows Raw :=
  match net.wallets[listener]? with
  | some wallet =>
      if claim ∈ wallet.scan.fetches then
        { net.withWallet listener (fun wallet =>
            { wallet with
              scan :=
                { wallet.scan with
                  fetches := wallet.scan.fetches.erase claim } }) with
          pending := net.pending.insert (claim, listener)
          sending := net.sending ++ [(listener, claim)] }
      else
        net
  | none => net

/-- Send a recorded fetch; one that cannot be sent fails at once. -/
def send
    (net : MerkleNet Backend HeaderRows Raw)
    (listener : ListenerId)
    (claim : ClaimAt) : MerkleNet Backend HeaderRows Raw :=
  if (listener, claim) ∈ net.sending then
    let taken := { net with sending := net.sending.erase (listener, claim) }
    match net.merkleReq with
    | some client =>
        if (net.clients[client]?).any MerkleClient.running then
          taken.withClient client (fun asked =>
            { asked with channel := asked.channel ++ [.getTxMerkle claim] })
        else
          taken.deliver (.failed claim.txid claim.height)
    | none => taken.deliver (.failed claim.txid claim.height)
  else
    net

def answer
    (net : MerkleNet Backend HeaderRows Raw)
    (client : Nat)
    (outcome : MerkleOutcome) : MerkleNet Backend HeaderRows Raw :=
  net.withClient client (fun asked =>
    match asked.channel with
    | .getTxMerkle claim :: rest =>
        if asked.running ∧ outcome.claim = claim then
          { asked with channel := rest, answers := asked.answers ++ [outcome] }
        else
          asked
    | _ => asked)

/-- Route the oldest answer of a client. -/
def forward
    (net : MerkleNet Backend HeaderRows Raw)
    (client : Nat) : MerkleNet Backend HeaderRows Raw :=
  match net.clients[client]? with
  | some ⟨_, _, _, outcome :: rest, .forwarding⟩ =>
      (net.withClient client (fun forwarded =>
        { forwarded with answers := rest })).deliver outcome
  | _ => net

/-- `merkle_client_ended` starts, and returns at once when superseded. -/
def drain
    (net : MerkleNet Backend HeaderRows Raw)
    (client : Nat) : MerkleNet Backend HeaderRows Raw :=
  net.withClient client (fun ended =>
    if ended.forwarder = .forwarding ∧ ended.running = false ∧
        ended.answers = [] then
      { ended with
        forwarder :=
          if net.writerToken = ended.token then .checked else .done }
    else
      ended)

/-- `merkle_client_ended` fails what still waits. -/
def failAll
    (net : MerkleNet Backend HeaderRows Raw)
    (client : Nat) : MerkleNet Backend HeaderRows Raw :=
  if (net.clients[client]?).any (fun ended => ended.forwarder = .checked) then
    (net.withClient client (fun ended =>
      { ended with forwarder := .failed })).failPending
  else
    net

/-- `merkle_client_ended` takes whatever request sender is in place. -/
def release
    (net : MerkleNet Backend HeaderRows Raw)
    (client : Nat) : MerkleNet Backend HeaderRows Raw :=
  if (net.clients[client]?).any (fun ended => ended.forwarder = .failed) then
    { net.withClient client (fun ended =>
        { ended with forwarder := .done }) with
      merkleReq := none }
  else
    net

/-- Take the request sender and ask its client to stop. -/
def takeRequest
    (net : MerkleNet Backend HeaderRows Raw) :
    MerkleNet Backend HeaderRows Raw :=
  match net.merkleReq with
  | some client =>
      { net.withClient client (fun asked =>
          { asked with channel := asked.channel ++ [.stop] }) with
        merkleReq := none }
  | none => net

/-- Wire a fresh client under a token, in place of the previous one. -/
def install
    (net : MerkleNet Backend HeaderRows Raw)
    (token : Nat) : MerkleNet Backend HeaderRows Raw :=
  { net with
    clients := net.clients ++ [⟨token, true, [], [], .forwarding⟩]
    merkleReq := some net.clients.length }

/-- Take one action, with what is left of the call in its place. -/
def perform
    (net : MerkleNet Backend HeaderRows Raw)
    (call : Nat)
    (rest : List StoreAction) :
    StoreAction → MerkleNet Backend HeaderRows Raw
  | .failPending =>
      { net.failPending with calls := net.calls.set call rest }
  | .takeRequest =>
      { net.takeRequest with calls := net.calls.set call rest }
  | .bump =>
      { net with
        writerToken := net.writerToken + 1
        calls := net.calls.set call rest }
  | .load =>
      { net with
        calls := net.calls.set call (.install net.writerToken :: rest) }
  | .install token =>
      { net.install token with calls := net.calls.set call rest }

/-- Take the next action of a call under way. -/
def act
    (net : MerkleNet Backend HeaderRows Raw)
    (call : Nat) : MerkleNet Backend HeaderRows Raw :=
  match net.calls[call]? with
  | some (action :: rest) => net.perform call rest action
  | _ => net

variable [PersistenceBackend Backend Txid TxEntry]
variable (btc : Bitcoin Raw) (crate : TxCrate)
variable (hashPair : TxMerkleNode → TxMerkleNode → TxMerkleNode)

/-- Let a wallet take a step; outcomes reach it through its inbox only. -/
def scan
    (net : MerkleNet Backend HeaderRows Raw)
    (listener : ListenerId) :
    ScanStep HeaderRows Raw → MerkleNet Backend HeaderRows Raw
  | .merkle _ => net
  | next =>
      net.withWallet listener (fun wallet =>
        { wallet with scan := wallet.scan.step btc crate hashPair next })

/-- Let a wallet handle the oldest outcome in its inbox. -/
def receive
    (net : MerkleNet Backend HeaderRows Raw)
    (listener : ListenerId) : MerkleNet Backend HeaderRows Raw :=
  net.withWallet listener (fun wallet =>
    match wallet.inbox with
    | outcome :: rest =>
        ⟨wallet.scan.step btc crate hashPair (.merkle outcome), rest⟩
    | [] => wallet)

/-- Take one step; a step that is not enabled changes nothing. -/
def step
    (net : MerkleNet Backend HeaderRows Raw) :
    NetStep HeaderRows Raw → MerkleNet Backend HeaderRows Raw
  | .scan listener next => net.scan btc crate hashPair listener next
  | .receive listener => net.receive btc crate hashPair listener
  | .record listener claim => net.record listener claim
  | .send listener claim => net.send listener claim
  | .answer client outcome => net.answer client outcome
  | .hangUp client =>
      net.withClient client (fun ended => { ended with running := false })
  | .forward client => net.forward client
  | .drain client => net.drain client
  | .failAll client => net.failAll client
  | .release client => net.release client
  | .start => { net with calls := net.calls ++ [spawnActions] }
  | .stop => { net with calls := net.calls ++ [stopActions] }
  | .restart => { net with calls := net.calls ++ [restartActions] }
  | .act call => net.act call

/-- Take the steps one after the other. -/
def run
    (net : MerkleNet Backend HeaderRows Raw)
    (steps : List (NetStep HeaderRows Raw)) :
    MerkleNet Backend HeaderRows Raw :=
  steps.foldl (step btc crate hashPair) net

end MerkleNet

end Bwk
