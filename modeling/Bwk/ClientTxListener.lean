import Bwk.ClientWire

namespace Bwk.Electrum

/-!
# The coin listener

`electrum/src/client/tx_listener.rs`: how coin requests become requests to the
server, and how the responses of one read are folded into a batch and then
emitted.  Five maps by request number and script hash are shared by the two
halves.
-/

/-- The decoders of third parties. -/
structure Decoders (Tx Header FromHexError HexError : Type) where
  transaction : String → Except FromHexError Tx
  header : String → Except FromHexError Header
  fromHex : String → Except HexError (List Nat)

/-- Why the server's hex is refused. -/
inductive DecodeError (HexError : Type) where
  | headerHex (source : HexError)
  | headerLength (got : Nat)
  | headersHex (source : HexError)
  | headersAlignment (got : Nat)
  | merkleHex (index : Nat) (source : HexError)
  | merkleHashLength (index got : Nat)

def merkleHashBytes : Nat := 32

/-- What the consumer asks for. -/
inductive CoinRequest where
  | subscribe (spks : List ScriptBuf)
  | history (spks : List ScriptBuf)
  | txs (txids : List Txid)
  | getTxMerkle (txid : Txid) (height : Nat)
  | headers (heights : List Nat)
  | stop
  deriving Repr, DecidableEq

/-- The errors the consumer is told. -/
inductive CoinError (FromHexError HexError : Type) where
  | send
  | txDecode (source : FromHexError)
  | merkleDecode (txid : Txid) (height : Nat) (source : DecodeError HexError)
  | merkleFetch (txid : Txid) (height : Nat) (error : ErrorResponse)
  | headerDecode (height : Nat) (source : FromHexError)
  | headerFetch (height : Nat) (error : ErrorResponse)
  | server (error : ErrorResponse)
  | transport

/-- What the consumer is told. -/
inductive CoinResponse (Tx Header FromHexError HexError : Type) where
  | status (statuses : BTreeMap ScriptBuf (Option String))
  | history (histories : BTreeMap ScriptBuf (List (Txid × Option Nat)))
  | txs (txs : List Tx)
  | txMerkle (txid : Txid) (height : Nat) (branch : List (List Nat)) (pos : Nat)
  | headers (headers : BTreeMap Nat Header)
  | stopped
  | error (reason : CoinError FromHexError HexError)

/-- Request-number and script-hash tracking. -/
structure TxState where
  reqIdSpk : BTreeMap Nat ScriptBuf
  reqIdTxMerkle : BTreeMap Nat (Txid × Nat)
  reqIdHeader : BTreeMap Nat Nat
  watchedSpksSh : BTreeMap Nat ScriptHash
  shSpk : BTreeMap ScriptHash ScriptBuf

/-- Nothing tracked. -/
def TxState.empty : TxState := ⟨∅, ∅, ∅, ∅, ∅⟩

/-- One read's worth of folded responses, grouped for batched emission. -/
structure TxBatch (Tx Header FromHexError HexError : Type) where
  statuses : BTreeMap ScriptBuf (Option String)
  txs : List Tx
  histories : BTreeMap ScriptBuf (List (Txid × Option Nat))
  headers : BTreeMap Nat Header
  /-- Emitted after the grouped responses. -/
  trailing : List (CoinResponse Tx Header FromHexError HexError)

/-- Nothing folded. -/
def TxBatch.empty {Tx Header FromHexError HexError : Type} :
    TxBatch Tx Header FromHexError HexError :=
  ⟨∅, [], ∅, ∅, []⟩

/-- The height a history row reports; below one it is a mempool height. -/
def rowHeight (height : Int) : Option Nat :=
  if height < 1 then none else some (height.toNat % 2 ^ 64)

section

variable {Tx Header FromHexError HexError : Type}
variable (scriptHash : ScriptBuf → ScriptHash)
variable (decoders : Decoders Tx Header FromHexError HexError)

/-- Decode the rest of a merkle branch, from the node at `index` on. -/
def decodeTxMerkleBranch (index : Nat) :
    List String → Except (DecodeError HexError) (List (List Nat))
  | [] => .ok []
  | hex :: rest =>
      match decoders.fromHex hex with
      | .error source => .error (.merkleHex index source)
      | .ok bytes =>
          if bytes.length ≠ merkleHashBytes then
            .error (.merkleHashLength index bytes.length)
          else
            match decodeTxMerkleBranch (index + 1) rest with
            | .error source => .error source
            | .ok branch => .ok (bytes.reverse :: branch)

def handleTxResponse
    (state : TxState)
    (batch : TxBatch Tx Header FromHexError HexError) :
    Response → TxState × TxBatch Tx Header FromHexError HexError
  | .shSubscribe id status =>
      match state.watchedSpksSh[id]? with
      | none => (state, batch)
      | some sh =>
          match state.shSpk[sh]? with
          | none => (state, batch)
          | some spk =>
              (state,
                { batch with statuses := batch.statuses.insert spk status })
  | .shNotification sh status =>
      match state.shSpk[sh]? with
      | none => (state, batch)
      | some spk =>
          (state, { batch with statuses := batch.statuses.insert spk status })
  | .shGetHistory id history =>
      match state.reqIdSpk[id]? with
      | none => (state, batch)
      | some spk =>
          ({ state with reqIdSpk := state.reqIdSpk.erase id },
            { batch with
              histories :=
                batch.histories.insert spk
                  (history.map (fun row => (row.1, rowHeight row.2))) })
  | .txGet _ rawTx =>
      match decoders.transaction rawTx with
      | .ok tx => (state, { batch with txs := batch.txs ++ [tx] })
      | .error source =>
          (state,
            { batch with
              trailing := batch.trailing ++ [.error (.txDecode source)] })
  | .txGetMerkle id merkle txPos =>
      match state.reqIdTxMerkle[id]? with
      | none => (state, batch)
      | some (txid, height) =>
          ({ state with reqIdTxMerkle := state.reqIdTxMerkle.erase id },
            { batch with
              trailing :=
                batch.trailing ++
                  [match decodeTxMerkleBranch decoders 0 merkle with
                  | .ok branch =>
                      .txMerkle txid height branch (txPos % 2 ^ 32)
                  | .error source =>
                      .error (.merkleDecode txid height source)] })
  | .header id rawHeader =>
      match state.reqIdHeader[id]? with
      | none => (state, batch)
      | some height =>
          ({ state with reqIdHeader := state.reqIdHeader.erase id },
            match decoders.header rawHeader with
            | .ok header =>
                { batch with headers := batch.headers.insert height header }
            | .error source =>
                { batch with
                  trailing :=
                    batch.trailing ++ [.error (.headerDecode height source)] })
  | .error reason =>
      match state.reqIdTxMerkle[reason.id]? with
      | some (txid, height) =>
          ({ state with
              reqIdTxMerkle := state.reqIdTxMerkle.erase reason.id },
            { batch with
              trailing :=
                batch.trailing ++ [.error (.merkleFetch txid height reason)] })
      | none =>
          match state.reqIdHeader[reason.id]? with
          | some height =>
              ({ state with
                  reqIdHeader := state.reqIdHeader.erase reason.id },
                { batch with
                  trailing :=
                    batch.trailing ++ [.error (.headerFetch height reason)] })
          | none =>
              (state,
                { batch with
                  trailing := batch.trailing ++ [.error (.server reason)] })
  | _ => (state, batch)

/-- Emission order: histories, statuses, transactions, headers, the rest. -/
def drainBatch (batch : TxBatch Tx Header FromHexError HexError) :
    List (CoinResponse Tx Header FromHexError HexError) :=
  (if batch.histories.isEmpty then [] else [.history batch.histories]) ++
    (if batch.statuses.isEmpty then [] else [.status batch.statuses]) ++
    (if batch.txs.isEmpty then [] else [.txs batch.txs]) ++
    (if batch.headers.isEmpty then [] else [.headers batch.headers]) ++
    batch.trailing

/-- Fold the responses of one read and emit them. -/
def handleTxResponses
    (state : TxState)
    (responses : List Response) :
    TxState × List (CoinResponse Tx Header FromHexError HexError) :=
  let (state, batch) :=
    responses.foldl
      (fun progress response =>
        handleTxResponse decoders progress.1 progress.2 response)
      (state, TxBatch.empty)
  (state, drainBatch batch)

/-- What a dispatch has numbered so far. -/
structure Dispatching where
  client : Client
  state : TxState
  batch : List Request

/-- Number one request and note what it asks for. -/
def Dispatching.register
    (progress : Dispatching)
    (method : Method)
    (note : Nat → TxState → TxState) : Dispatching :=
  let (client, request) := progress.client.register method
  { client := client
    state := note request.id progress.state
    batch := progress.batch ++ [request] }

def subscribeOne (progress : Dispatching) (spk : ScriptBuf) : Dispatching :=
  progress.register (.scriptHashSubscribe spk) (fun id state =>
    { state with
      watchedSpksSh := state.watchedSpksSh.insert id (scriptHash spk)
      shSpk := state.shSpk.insert (scriptHash spk) spk })

def historyOne (progress : Dispatching) (spk : ScriptBuf) : Dispatching :=
  progress.register (.scriptHashGetHistory spk) (fun id state =>
    { state with reqIdSpk := state.reqIdSpk.insert id spk })

/-- Ask for one transaction. -/
def txOne (progress : Dispatching) (txid : Txid) : Dispatching :=
  progress.register (.transactionGet txid) (fun _ state => state)

/-- Ask for one merkle branch. -/
def merkleOne
    (progress : Dispatching)
    (txid : Txid)
    (height : Nat) : Dispatching :=
  progress.register (.transactionGetMerkle txid height) (fun id state =>
    { state with
      reqIdTxMerkle := state.reqIdTxMerkle.insert id (txid, height) })

def headerOne (progress : Dispatching) (height : Nat) : Dispatching :=
  progress.register (.blockHeader height) (fun id state =>
    { state with reqIdHeader := state.reqIdHeader.insert id height })

/-- Send the batch; a failure is reported to the consumer. -/
def sendBatch (sent : Bool) (batch : List Request) :
    List (CoinResponse Tx Header FromHexError HexError) × Dispatch :=
  if batch.isEmpty then
    ([], .empty)
  else
    (if sent then [] else [.error .send], .sent batch)

def numberRequests (client : Client) (state : TxState) :
    CoinRequest → Dispatching
  | .subscribe spks => spks.foldl (subscribeOne scriptHash) ⟨client, state, []⟩
  | .history spks => spks.foldl historyOne ⟨client, state, []⟩
  | .txs txids => txids.foldl txOne ⟨client, state, []⟩
  | .getTxMerkle txid height => merkleOne ⟨client, state, []⟩ txid height
  | .headers heights => heights.foldl headerOne ⟨client, state, []⟩
  | .stop => ⟨client, state, []⟩

def dispatchTx
    (sent : Bool)
    (client : Client)
    (state : TxState)
    (rq : CoinRequest) :
    Client × TxState × List (CoinResponse Tx Header FromHexError HexError) ×
      Dispatch :=
  match rq with
  | .stop => (client, state, [.stopped], .terminate)
  | _ =>
      let numbered := numberRequests scriptHash client state rq
      let (out, dispatched) := sendBatch sent numbered.batch
      (numbered.client, numbered.state, out, dispatched)

def listenTxs :
    Protocol TxState CoinRequest
      (CoinResponse Tx Header FromHexError HexError) where
  dispatch := dispatchTx scriptHash
  handle := handleTxResponses decoders
  transportErr := .error .transport

end

end Bwk.Electrum
