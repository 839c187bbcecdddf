import Bwk.JsonDecode
import Bwk.OrderedMap

namespace Bwk.ElectrumWire

/-!
# Reading the messages of an Electrum server

`electrum/src/electrum/response.rs` over parsed JSON: what a message is is told
by trying one type after the other, and a result is read as the type that the
method of its request asks for.  A number is a `usize` of 64 bits.
-/

open JsonDecode

/-- `Method`. -/
inductive Method where
  | banner
  | blockHeader
  | blockHeaders
  | transactionBroadcast
  | donation
  | estimateFee
  | features
  | headersSubscribe
  | feeHistogram
  | listPeers
  | ping
  | relayFee
  | scriptHashGetBalance
  | scriptHashGetHistory
  | scriptHashListUnspent
  | scriptHashSubscribe
  | scriptHashUnsubscribe
  | transactionGet
  | transactionGetMerkle
  | transactionFromPosition
  | version
  deriving Repr, DecidableEq

def Method.named : String → Option Method
  | "server.banner" => some .banner
  | "blockchain.block.header" => some .blockHeader
  | "blockchain.block.headers" => some .blockHeaders
  | "blockchain.transaction.broadcast" => some .transactionBroadcast
  | "server.donation_address" => some .donation
  | "blockchain.estimatefee" => some .estimateFee
  | "server.features" => some .features
  | "blockchain.headers.subscribe" => some .headersSubscribe
  | "mempool.get_fee_histogram" => some .feeHistogram
  | "server.peers.subscribe" => some .listPeers
  | "server.ping" => some .ping
  | "blockchain.relayfee" => some .relayFee
  | "blockchain.scripthash.get_balance" => some .scriptHashGetBalance
  | "blockchain.scripthash.get_history" => some .scriptHashGetHistory
  | "blockchain.scripthash.listunspent" => some .scriptHashListUnspent
  | "blockchain.scripthash.subscribe" => some .scriptHashSubscribe
  | "blockchain.scripthash.unsubscribe" => some .scriptHashUnsubscribe
  | "blockchain.transaction.get" => some .transactionGet
  | "blockchain.transaction.get_merkle" => some .transactionGetMerkle
  | "blockchain.transaction.id_from_pos" => some .transactionFromPosition
  | "server.version" => some .version
  | _ => none

/-- A request, as far as its response is read by it. -/
structure Request where
  id : UInt64
  method : Method
  deriving Repr, DecidableEq

/-- The hashes that are read from their hexadecimal texts. -/
structure HashCrate where
  Txid : Type
  ScriptHash : Type
  txid : String → Option Txid
  scriptHash : String → Option ScriptHash

/-- A response to a request. -/
structure Reply (Result : Type) where
  id : UInt64
  result : Result

structure ErrorResult where
  code : UInt64
  message : String

structure ErrorResponse where
  id : UInt64
  error : ErrorResult

structure SHNotification (ScriptHash : Type) where
  method : Method
  status : ScriptHash × Option String

structure RawResponse where
  jsonrpc : String
  id : UInt64

structure Header where
  height : UInt64
  rawHeader : String

structure BatchHeaderNotif where
  method : Method
  headers : List Header

inductive HeaderNotification where
  | single (notif : Reply Header)
  | batch (notif : BatchHeaderNotif)

structure Headers where
  count : UInt64
  rawHeaders : String
  max : UInt64

inductive VersionKind where
  | single (version : String)
  | minMax (min max : String)

inductive Port where
  | string (text : String)
  | u16 (port : UInt16)

structure Host where
  tcpPort : Option Port
  sslPort : Option Port

inductive Hosts where
  | single (host : Host)
  | map (hosts : List (String × Host))

structure FeaturesResult where
  genesis : String
  hosts : Hosts
  protocolMax : String
  protocolMin : String
  pruning : Option UInt64
  serverVersion : String
  hashFunction : String
  services : Option (List String)

structure BalanceResult where
  confirmed : Int64
  unconfirmed : Int64

structure HistoryResult (Txid : Type) where
  height : Int
  txid : Txid
  fee : Option UInt64

structure UtxoResult (Txid : Type) where
  height : UInt64
  txid : Txid
  vout : UInt64
  value : UInt64

structure VerboseTx where
  blockhash : String
  blocktime : UInt64
  confirmations : UInt64
  locktime : UInt64
  size : UInt64
  time : UInt64
  version : UInt64
  txid : String
  rawTx : String
  vin : Json
  vout : Json

inductive TxGetResult where
  | raw (text : String)
  | verbose (tx : VerboseTx)

structure GetMerkleResult where
  merkle : List String
  blockHeight : UInt64
  txPos : UInt64

inductive TxfromPosResult (Txid : Type) where
  | simple (txid : Txid)
  | withMerkle (txid : Txid) (merkle : List String)

/-- `Response`. -/
inductive Response (crate : HashCrate) where
  | headerNotif (notif : HeaderNotification)
  | batchHeaderNotif (notif : BatchHeaderNotif)
  | shNotification (notif : SHNotification crate.ScriptHash)
  | ping (reply : Reply (Option String))
  | banner (reply : Reply String)
  | header (reply : Reply String)
  | headers (reply : Reply Headers)
  | version (reply : Reply (String × VersionKind))
  | txGet (reply : Reply TxGetResult)
  | shSubscribe (reply : Reply (Option String))
  | shUnsubscribe (reply : Reply Bool)
  | shGetBalance (reply : Reply BalanceResult)
  | shGetHistory (reply : Reply (List (HistoryResult crate.Txid)))
  | shListUnspent (reply : Reply (List (UtxoResult crate.Txid)))
  | error (error : ErrorResponse)
  | features (reply : Reply FeaturesResult)
  | txBroadcast (reply : Reply crate.Txid)
  | donation (reply : Reply (Option String))
  | estimateFee (reply : Reply Number)
  | feeHistogram (reply : Reply (List (UInt64 × UInt64)))
  | relayFee (reply : Reply Number)
  | txGetMerkle (reply : Reply GetMerkleResult)
  | txFromposition (reply : Reply (TxfromPosResult crate.Txid))

/-- A `usize`. -/
def usize : Decoder UInt64 :=
  fun json => (unsigned 64 json).map UInt64.ofNat

/-- A `u16`. -/
def u16 : Decoder UInt16 :=
  fun json => (unsigned 16 json).map UInt16.ofNat

/-- An `i64`. -/
def i64 : Decoder Int64 :=
  fun json => (integer (-2 ^ 63) (2 ^ 63 - 1) json).map Int64.ofInt

def hash {Hash : Type} (fromHex : String → Option Hash) : Decoder Hash :=
  fun json => (string json).bind fromHex

def reply {Result : Type} (result : Decoder Result) :
    Decoder (Reply Result) :=
  fun json => do
    match ← fields ["id", "result"] json with
    | [id, found] =>
        return ⟨← required usize id, ← required result found⟩
    | _ => none

/-- A response whose result may be missing. -/
def optionalReply {Result : Type} (result : Decoder Result) :
    Decoder (Reply (Option Result)) :=
  fun json => do
    match ← fields ["id", "result"] json with
    | [id, found] =>
        return ⟨← required usize id, ← optional result found⟩
    | _ => none

def ErrorResult.decode : Decoder ErrorResult :=
  fun json => do
    match ← fields ["code", "message"] json with
    | [code, message] =>
        return ⟨← required usize code, ← required string message⟩
    | _ => none

def ErrorResponse.decode : Decoder ErrorResponse :=
  fun json => do
    match ← fields ["id", "error"] json with
    | [id, error] =>
        return ⟨← required usize id, ← required ErrorResult.decode error⟩
    | _ => none

def SHNotification.decode (crate : HashCrate) :
    Decoder (SHNotification crate.ScriptHash) :=
  fun json => do
    match ← fields ["method", "params"] json with
    | [method, params] =>
        return ⟨← required (tag Method.named) method,
          ← required (pair (hash crate.scriptHash) (nullable string)) params⟩
    | _ => none

def RawResponse.decode : Decoder RawResponse :=
  fun json => do
    match ← fields ["jsonrpc", "id"] json with
    | [jsonrpc, id] =>
        return ⟨← required string jsonrpc, ← required usize id⟩
    | _ => none

def Header.decode : Decoder Header :=
  fun json => do
    match ← fields ["height", "hex"] json with
    | [height, hex] =>
        return ⟨← required usize height, ← required string hex⟩
    | _ => none

def BatchHeaderNotif.decode : Decoder BatchHeaderNotif :=
  fun json => do
    match ← fields ["method", "params"] json with
    | [method, params] =>
        return ⟨← required (tag Method.named) method,
          ← required (list Header.decode) params⟩
    | _ => none

def HeaderNotification.decode : Decoder HeaderNotification :=
  either (fun json => (reply Header.decode json).map .single)
    (fun json => (BatchHeaderNotif.decode json).map .batch)

def Headers.decode : Decoder Headers :=
  fun json => do
    match ← fields ["count", "hex", "max"] json with
    | [count, hex, max] =>
        return ⟨← required usize count, ← required string hex,
          ← required usize max⟩
    | _ => none

def VersionKind.decode : Decoder VersionKind :=
  either (fun json => (string json).map .single)
    (fun json => (pair string string json).map fun versions =>
      .minMax versions.1 versions.2)

def Port.decode : Decoder Port :=
  either (fun json => (JsonDecode.string json).map .string)
    (fun json => (ElectrumWire.u16 json).map .u16)

def Host.decode : Decoder Host :=
  fun json => do
    match ← fields ["tcp_port", "ssl_port"] json with
    | [tcpPort, sslPort] =>
        return ⟨← optional Port.decode tcpPort,
          ← optional Port.decode sslPort⟩
    | _ => none

def Hosts.decode : Decoder Hosts :=
  either (fun json => (Host.decode json).map .single)
    (fun json => (members Host.decode json).map .map)

def FeaturesResult.decode : Decoder FeaturesResult :=
  fun json => do
    match ← fields ["genesis_hash", "hosts", "protocol_max", "protocol_min",
        "pruning", "server_version", "hash_function", "services"] json with
    | [genesis, hosts, protocolMax, protocolMin, pruning, serverVersion,
        hashFunction, services] =>
        return ⟨← required string genesis, ← required Hosts.decode hosts,
          ← required string protocolMax, ← required string protocolMin,
          ← optional usize pruning, ← required string serverVersion,
          ← required string hashFunction, ← optional (list string) services⟩
    | _ => none

def BalanceResult.decode : Decoder BalanceResult :=
  fun json => do
    match ← fields ["confirmed", "unconfirmed"] json with
    | [confirmed, unconfirmed] =>
        return ⟨← required i64 confirmed, ← required i64 unconfirmed⟩
    | _ => none

def HistoryResult.decode (crate : HashCrate) :
    Decoder (HistoryResult crate.Txid) :=
  fun json => do
    match ← fields ["height", "tx_hash", "fee"] json with
    | [height, txid, fee] =>
        return ⟨← required (integer (-2 ^ 127) (2 ^ 127 - 1)) height,
          ← required (hash crate.txid) txid, ← optional usize fee⟩
    | _ => none

def UtxoResult.decode (crate : HashCrate) : Decoder (UtxoResult crate.Txid) :=
  fun json => do
    match ← fields ["height", "tx_hash", "tx_pos", "value"] json with
    | [height, txid, vout, value] =>
        return ⟨← required usize height, ← required (hash crate.txid) txid,
          ← required usize vout, ← required usize value⟩
    | _ => none

def VerboseTx.decode : Decoder VerboseTx :=
  fun json => do
    match ← fields ["blockhash", "blocktime", "confirmations", "locktime",
        "size", "time", "version", "txid", "hex", "vin", "vout"] json with
    | [blockhash, blocktime, confirmations, locktime, size, time, version,
        txid, hex, vin, vout] =>
        return ⟨← required string blockhash, ← required usize blocktime,
          ← required usize confirmations, ← required usize locktime,
          ← required usize size, ← required usize time,
          ← required usize version, ← required string txid,
          ← required string hex, ← required value vin,
          ← required value vout⟩
    | _ => none

def TxGetResult.decode : Decoder TxGetResult :=
  either (fun json => (string json).map .raw)
    (fun json => (VerboseTx.decode json).map .verbose)

def GetMerkleResult.decode : Decoder GetMerkleResult :=
  fun json => do
    match ← fields ["merkle", "block_height", "pos"] json with
    | [merkle, blockHeight, txPos] =>
        return ⟨← required (list string) merkle,
          ← required usize blockHeight, ← required usize txPos⟩
    | _ => none

/-- The variant with the merkle branch is read from an object only. -/
def TxfromPosResult.decode (crate : HashCrate) :
    Decoder (TxfromPosResult crate.Txid) :=
  either (fun json => (hash crate.txid json).map .simple) fun json => do
    match ← objectFields ["tx_hash", "merkle"] json with
    | [txid, merkle] =>
        return .withMerkle (← required (hash crate.txid) txid)
          (← required (list string) merkle)
    | _ => none

/-- Why a message is refused. -/
inductive Failure where
  | rawResponseParsing
  | responseParsing
  | responseId (id : UInt64)
  /-- `todo!()` on the response to a peers request. -/
  | panicked
  deriving Repr, DecidableEq

/-- The index of the requests that wait for a response. -/
abbrev Index := BTreeMap UInt64 Request

/-- `parse!`: read a message as one type of response. -/
def parse {crate : HashCrate} {Read : Type}
    (respond : Read → Response crate)
    (decode : Decoder Read)
    (raw : Json) : Except Failure (Response crate) :=
  match decode raw with
  | some read => .ok (respond read)
  | none => .error .responseParsing

/-- Read a message as the method of its request asks. -/
def parseAs (crate : HashCrate) (raw : Json) :
    Method → Except Failure (Response crate)
  | .ping => parse .ping (optionalReply string) raw
  | .banner => parse .banner (reply string) raw
  | .headersSubscribe => parse .headerNotif HeaderNotification.decode raw
  | .blockHeader => parse .header (reply string) raw
  | .blockHeaders => parse .headers (reply Headers.decode) raw
  | .version =>
      parse .version (reply (pair string VersionKind.decode)) raw
  | .transactionGet => parse .txGet (reply TxGetResult.decode) raw
  | .scriptHashSubscribe => parse .shSubscribe (optionalReply string) raw
  | .scriptHashUnsubscribe => parse .shUnsubscribe (reply bool) raw
  | .scriptHashGetBalance =>
      parse .shGetBalance (reply BalanceResult.decode) raw
  | .scriptHashGetHistory =>
      parse .shGetHistory (reply (list (HistoryResult.decode crate))) raw
  | .scriptHashListUnspent =>
      parse .shListUnspent (reply (list (UtxoResult.decode crate))) raw
  | .features => parse .features (reply FeaturesResult.decode) raw
  | .donation => parse .donation (optionalReply string) raw
  | .estimateFee => parse .estimateFee (reply float) raw
  | .feeHistogram =>
      parse .feeHistogram (reply (list (pair usize usize))) raw
  | .relayFee => parse .relayFee (reply float) raw
  | .transactionGetMerkle =>
      parse .txGetMerkle (reply GetMerkleResult.decode) raw
  | .transactionFromPosition =>
      parse .txFromposition (reply (TxfromPosResult.decode crate)) raw
  | .transactionBroadcast =>
      parse .txBroadcast (reply (hash crate.txid)) raw
  | .listPeers => .error .panicked

/-- `Response::try_parse`. -/
def tryParse (crate : HashCrate) (index : Index) (raw : Json) :
    Except Failure (Response crate) :=
  match ErrorResponse.decode raw with
  | some error => .ok (.error error)
  | none =>
      match BatchHeaderNotif.decode raw with
      | some notif => .ok (.batchHeaderNotif notif)
      | none =>
          match SHNotification.decode crate raw with
          | some notif => .ok (.shNotification notif)
          | none =>
              match RawResponse.decode raw with
              | none => .error .rawResponseParsing
              | some response =>
                  match index[response.id]? with
                  | none => .error (.responseId response.id)
                  | some request => parseAs crate raw request.method

/-- `ResponseBatch::from_str`: the responses of an array; the first element
that is refused spoils the batch.  That an element is printed and read again in
between is taken to change nothing. -/
def responseBatch (crate : HashCrate) (index : Index) :
    Json → Except Failure (Option (List (Response crate)))
  | .array elements => (elements.mapM (tryParse crate index)).map some
  | _ => .ok none

/-- `parse_str_response`. -/
def parseStrResponse (crate : HashCrate) (index : Index) (raw : Json) :
    Except Failure (List (Response crate)) :=
  match responseBatch crate index raw with
  | .error cause => .error cause
  | .ok (some batch) => .ok batch
  | .ok none => (tryParse crate index raw).map fun response => [response]

/-- A JSON-RPC error object, with members in any order and any others. -/
def IsErrorObject
    (raw : Json)
    (id : UInt64)
    (code : Int)
    (message : String) : Prop :=
  ∃ found details,
    raw = .object found ∧
      found.lookup "jsonrpc" = some (.string "2.0") ∧
      found.lookup "id" = some (.number (.int id.toNat)) ∧
      found.lookup "error" = some (.object details) ∧
      details.lookup "code" = some (.number (.int code)) ∧
      details.lookup "message" = some (.string message)

/-- An element that is accepted on its own. -/
def Accepted (crate : HashCrate) (index : Index) (raw : Json) : Prop :=
  (tryParse crate index raw).toOption.isSome

instance (crate : HashCrate) (index : Index) :
    DecidablePred (Accepted crate index) :=
  fun raw => inferInstanceAs
    (Decidable ((tryParse crate index raw).toOption.isSome = true))

/-- The responses of an array; a refused one has none. -/
def returned (crate : HashCrate) (index : Index) (elements : List Json) :
    List (Response crate) :=
  match parseStrResponse crate index (.array elements) with
  | .ok responses => responses
  | .error _ => []

/--
Every element that is accepted on its own is among the responses, in order, and
every error object of a waiting request is accepted as an error.
-/
structure Delivers
    (crate : HashCrate)
    (index : Index)
    (elements : List Json) : Prop where
  inOrder :
    (readable (tryParse crate index) elements).Sublist
      (returned crate index elements)
  errors :
    ∀ element ∈ elements, ∀ id code message,
      IsErrorObject element id code message → index[id]?.isSome →
        ∃ error, tryParse crate index element = .ok (.error error) ∧
          error.id = id

/-- The elements are accepted all or none, and the codes of the errors are
those of a `usize`. -/
structure Regular
    (crate : HashCrate)
    (index : Index)
    (elements : List Json) : Prop where
  alike :
    (∀ element ∈ elements, Accepted crate index element) ∨
      ∀ element ∈ elements, ¬ Accepted crate index element
  codes :
    ∀ element ∈ elements, ∀ id code message,
      IsErrorObject element id code message → index[id]?.isSome →
        0 ≤ code ∧ code < 2 ^ 64

section Errors

variable {crate : HashCrate} {raw : Json}

theorem usize_int (code : Int) :
    usize (.number (.int code)) =
      if 0 ≤ code ∧ code < 2 ^ 64 then
        some (UInt64.ofNat code.toNat)
      else
        none := by
  rw [usize, unsigned]
  split <;> rfl

theorem usize_toNat (id : UInt64) :
    usize (.number (.int id.toNat)) = some id := by
  have bound := id.toNat_lt
  rw [usize_int, if_pos (by omega), Int.toNat_natCast, UInt64.ofNat_toNat]

theorem decode_details (details : List (String × Json)) :
    ErrorResult.decode (.object details) =
      (required usize (details.lookup "code")).bind fun code =>
        (required JsonDecode.string (details.lookup "message")).bind
          fun message => some ⟨code, message⟩ := rfl

theorem decode_error (found : List (String × Json)) :
    ErrorResponse.decode (.object found) =
      (required usize (found.lookup "id")).bind fun id =>
        (required ErrorResult.decode (found.lookup "error")).bind
          fun error => some ⟨id, error⟩ := rfl

variable {id : UInt64} {code : Int} {message : String}

theorem decode_errorObject
    (isError : IsErrorObject raw id code message) :
    ErrorResponse.decode raw =
      if 0 ≤ code ∧ code < 2 ^ 64 then
        some ⟨id, UInt64.ofNat code.toNat, message⟩
      else
        none := by
  obtain ⟨found, details, rfl, -, idFound, errorFound, codeFound,
    messageFound⟩ := isError
  rw [decode_error, idFound, errorFound, required, usize_toNat,
    Option.bind_some, required, decode_details, codeFound, messageFound,
    required, usize_int]
  by_cases range : 0 ≤ code ∧ code < 2 ^ 64
  · rw [if_pos range, if_pos range]
    rfl
  · rw [if_neg range, if_neg range]
    rfl

theorem parse_ne_error
    {Read : Type}
    {respond : Read → Response crate}
    (other : ∀ read error, respond read ≠ .error error)
    (decode : Decoder Read)
    (error : ErrorResponse) :
    parse respond decode raw ≠ .ok (.error error) := by
  rw [parse]
  intro accepted
  cases read : decode raw with
  | none =>
      rw [read] at accepted
      cases accepted
  | some result =>
      rw [read] at accepted
      exact other result error (Except.ok.inj accepted)

theorem parseAs_ne_error (method : Method) (error : ErrorResponse) :
    parseAs crate raw method ≠ .ok (.error error) := by
  cases method with
  | listPeers =>
      rintro ⟨⟩
  | _ =>
      exact parse_ne_error (by rintro _ _ ⟨⟩) _ error

theorem tryParse_error_iff (index : Index) (error : ErrorResponse) :
    tryParse crate index raw = .ok (.error error) ↔
      ErrorResponse.decode raw = some error := by
  rw [tryParse]
  cases ErrorResponse.decode raw with
  | some read =>
      simp
  | none =>
      dsimp only
      constructor
      · intro accepted
        split at accepted
        · cases accepted
        · split at accepted
          · cases accepted
          · split at accepted
            · cases accepted
            · split at accepted
              · cases accepted
              · exact absurd accepted (parseAs_ne_error _ error)
      · rintro ⟨⟩

theorem tryParse_errorObject_iff
    (index : Index)
    {id : UInt64}
    {code : Int}
    {message : String}
    (isError : IsErrorObject raw id code message) :
    (∃ error, tryParse crate index raw = .ok (.error error) ∧
        error.id = id) ↔
      0 ≤ code ∧ code < 2 ^ 64 := by
  simp only [tryParse_error_iff, decode_errorObject isError]
  by_cases range : 0 ≤ code ∧ code < 2 ^ 64
  · rw [if_pos range]
    exact ⟨fun _ => range, fun _ => ⟨_, rfl, rfl⟩⟩
  · rw [if_neg range]
    constructor
    · rintro ⟨error, ⟨⟩, -⟩
    · intro inRange
      exact absurd inRange range

theorem parseStrResponse_array (index : Index) (elements : List Json) :
    parseStrResponse crate index (.array elements) =
      elements.mapM (tryParse crate index) := by
  rw [parseStrResponse, responseBatch]
  cases elements.mapM (tryParse crate index) <;> rfl

theorem parseStrResponse_errorObject
    (index : Index)
    (isError : IsErrorObject raw id code message) :
    parseStrResponse crate index raw =
      (tryParse crate index raw).map fun response => [response] := by
  obtain ⟨found, details, rfl, -⟩ := isError
  rfl

/-- One element that is accepted makes the batch stand or fall with the
others. -/
theorem accepted_of_delivers
    {index : Index}
    {elements : List Json}
    (delivers : Delivers crate index elements)
    {element : Json}
    (member : element ∈ elements)
    (accepted : Accepted crate index element) :
    ∀ other ∈ elements, Accepted crate index other := by
  obtain ⟨response, read⟩ := Option.isSome_iff_exists.mp accepted
  have listed : response ∈ returned crate index elements :=
    delivers.inOrder.subset (List.mem_filterMap.mpr ⟨element, member, read⟩)
  rw [returned, parseStrResponse_array] at listed
  cases whole : elements.mapM (tryParse crate index) with
  | error cause =>
      rw [whole] at listed
      cases listed
  | ok responses =>
      exact fun other inElements => all_of_mapM whole inElements

end Errors

/--
A batch delivers what is accepted on its own exactly when its elements are
accepted all or none and every code of an error is a `usize`: one odd element
spoils the batch, and a negative code makes an error no error.
-/
theorem delivers_iff_regular
    (crate : HashCrate)
    (index : Index) :
    (∀ elements, Delivers crate index elements ↔
      Regular crate index elements) ∧
      ∀ raw id code message, IsErrorObject raw id code message →
        ((∃ error, parseStrResponse crate index raw =
            .ok [.error error] ∧ error.id = id) ↔
          0 ≤ code ∧ code < 2 ^ 64) := by
  constructor
  · intro elements
    constructor
    · intro delivers
      refine ⟨?_, ?_⟩
      · by_cases some' : ∃ element ∈ elements, Accepted crate index element
        · obtain ⟨element, member, accepted⟩ := some'
          exact .inl (accepted_of_delivers delivers member accepted)
        · right
          intro element member accepted
          exact some' ⟨element, member, accepted⟩
      · intro element member id code message isError waits
        exact (tryParse_errorObject_iff index isError).mp
          (delivers.errors element member id code message isError waits)
    · intro regular
      refine ⟨?_, ?_⟩
      · obtain all | none := regular.alike
        · rw [returned, parseStrResponse_array, mapM_of_all all]
        · have nothing : readable (tryParse crate index) elements = [] := by
            rw [readable, List.filterMap_eq_nil_iff]
            intro element member
            exact Option.not_isSome_iff_eq_none.mp (none element member)
          rw [nothing]
          exact List.nil_sublist _
      · intro element member id code message isError waits
        exact (tryParse_errorObject_iff index isError).mpr
          (regular.codes element member id code message isError waits)
  · intro raw id code message isError
    rw [← @tryParse_errorObject_iff crate raw index id code message isError,
      parseStrResponse_errorObject index isError]
    cases tryParse crate index raw with
    | error cause =>
        simp [Except.map]
    | ok response =>
        simp [Except.map]

/-- A stand-in for the hashes: their texts. -/
def sampleCrate : HashCrate where
  Txid := String
  ScriptHash := String
  txid := some
  scriptHash := some

/-- A banner that is waited for. -/
def sampleIndex : Index :=
  (∅ : Index).insert 0 ⟨0, .banner⟩

def sampleBanner : Json :=
  .object [("jsonrpc", .string "2.0"), ("id", .number (.int 0)),
    ("result", .string "welcome")]

/-- An error for a request that is waited for. -/
def sampleError (code : Int) : Json :=
  .object [("jsonrpc", .string "2.0"), ("id", .number (.int 0)),
    ("error", .object [("code", .number (.int code)),
      ("message", .string "unknown method")])]

/-- A good response is lost beside a late one, and an error with the code of an
unknown method is not read as an error. -/
theorem batch_spoiled :
    ¬ Delivers sampleCrate sampleIndex
        [sampleBanner,
          .object [("jsonrpc", .string "2.0"), ("id", .number (.int 9)),
            ("result", .null)]] ∧
      ¬ Delivers sampleCrate sampleIndex [sampleError (-32601)] ∧
      (parseStrResponse sampleCrate sampleIndex
        (sampleError (-32601))).toOption.isNone := by
  refine ⟨?_, ?_, ?_⟩
  · intro delivers
    have all :=
      accepted_of_delivers delivers List.mem_cons_self
        (by decide +kernel) _ (List.mem_cons_of_mem _ List.mem_cons_self)
    exact absurd all (by decide +kernel)
  · intro delivers
    have isError :
        IsErrorObject (sampleError (-32601)) 0 (-32601) "unknown method" :=
      ⟨_, _, rfl, rfl, rfl, rfl, rfl, rfl⟩
    have range :=
      (tryParse_errorObject_iff sampleIndex isError).mp
        (delivers.errors _ List.mem_cons_self 0 (-32601) "unknown method"
          isError (by decide +kernel))
    omega
  · decide +kernel

end Bwk.ElectrumWire
