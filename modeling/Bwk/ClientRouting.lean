import Bwk.ClientTxListener
import Bwk.ClientLoop
import Bwk.Correlation

namespace Bwk.Electrum

/-!
# Which request a coin response answers

Every response is folded on its own: it takes at most one entry out of the
tables and adds at most one answer to the batch.  A history of what was handled
tells which number each answer was given under, and what that number had been
asked for.
-/

variable {Tx Header FromHexError HexError : Type}

/-- What one response is folded into. -/
inductive Answer (Tx Header FromHexError HexError : Type) where
  | status (spk : ScriptBuf) (status : Option String)
  | history (spk : ScriptBuf) (rows : List (Txid × Option Nat))
  | tx (tx : Tx)
  | header (height : Nat) (header : Header)
  | merkle (txid : Txid) (height : Nat) (branch : List (List Nat)) (pos : Nat)
  | error (reason : CoinError FromHexError HexError)

/-- The request an answer names; statuses, transactions and the errors of other
requests name none. -/
def Answer.request : Answer Tx Header FromHexError HexError → Option Method
  | .history spk _ => some (.scriptHashGetHistory spk)
  | .merkle txid height _ _
  | .error (.merkleDecode txid height _)
  | .error (.merkleFetch txid height _) =>
      some (.transactionGetMerkle txid height)
  | .header height _
  | .error (.headerDecode height _)
  | .error (.headerFetch height _) => some (.blockHeader height)
  | _ => none

def TxBatch.add
    (batch : TxBatch Tx Header FromHexError HexError) :
    Option (Answer Tx Header FromHexError HexError) →
      TxBatch Tx Header FromHexError HexError
  | none => batch
  | some (.status spk status) =>
      { batch with statuses := batch.statuses.insert spk status }
  | some (.history spk rows) =>
      { batch with histories := batch.histories.insert spk rows }
  | some (.tx tx) => { batch with txs := batch.txs ++ [tx] }
  | some (.header height header) =>
      { batch with headers := batch.headers.insert height header }
  | some (.merkle txid height branch pos) =>
      { batch with
        trailing := batch.trailing ++ [.txMerkle txid height branch pos] }
  | some (.error reason) =>
      { batch with trailing := batch.trailing ++ [.error reason] }

namespace TxState

/-- The tables once a response is handled. -/
def take (state : TxState) : Response → TxState
  | .shGetHistory id _ => { state with reqIdSpk := state.reqIdSpk.erase id }
  | .txGetMerkle id _ _ =>
      { state with reqIdTxMerkle := state.reqIdTxMerkle.erase id }
  | .header id _ => { state with reqIdHeader := state.reqIdHeader.erase id }
  | .error reason =>
      if reason.id ∈ state.reqIdTxMerkle then
        { state with reqIdTxMerkle := state.reqIdTxMerkle.erase reason.id }
      else
        { state with reqIdHeader := state.reqIdHeader.erase reason.id }
  | _ => state

def answer
    (decoders : Decoders Tx Header FromHexError HexError)
    (state : TxState) :
    Response → Option (Answer Tx Header FromHexError HexError)
  | .shSubscribe id status =>
      (state.watchedSpksSh[id]?.bind (fun sh => state.shSpk[sh]?)).map
        (fun spk => .status spk status)
  | .shNotification sh status =>
      state.shSpk[sh]?.map (fun spk => .status spk status)
  | .shGetHistory id history =>
      state.reqIdSpk[id]?.map (fun spk =>
        .history spk (history.map (fun row => (row.1, rowHeight row.2))))
  | .txGet _ rawTx =>
      match decoders.transaction rawTx with
      | .ok tx => some (.tx tx)
      | .error source => some (.error (.txDecode source))
  | .txGetMerkle id merkle txPos =>
      state.reqIdTxMerkle[id]?.map (fun key =>
        match decodeTxMerkleBranch decoders 0 merkle with
        | .ok branch => .merkle key.1 key.2 branch (txPos % 2 ^ 32)
        | .error source => .error (.merkleDecode key.1 key.2 source))
  | .header id rawHeader =>
      state.reqIdHeader[id]?.map (fun height =>
        match decoders.header rawHeader with
        | .ok header => .header height header
        | .error source => .error (.headerDecode height source))
  | .error reason =>
      match state.reqIdTxMerkle[reason.id]? with
      | some key => some (.error (.merkleFetch key.1 key.2 reason))
      | none =>
          match state.reqIdHeader[reason.id]? with
          | some height => some (.error (.headerFetch height reason))
          | none => some (.error (.server reason))
  | _ => none

theorem erase_absent
    {Value : Type}
    {map : BTreeMap Nat Value}
    {id : Nat}
    (absent : map[id]? = none) :
    map.erase id = map := by
  refine Std.ExtTreeMap.ext_getElem? (fun query => ?_)
  rw [BTreeMap.getElem?_erase_eq]
  by_cases here : id = query
  · rw [if_pos here, ← here, absent]
  · rw [if_neg here]

end TxState

theorem handleTxResponse_eq
    (decoders : Decoders Tx Header FromHexError HexError)
    (state : TxState)
    (batch : TxBatch Tx Header FromHexError HexError)
    (response : Response) :
    handleTxResponse decoders state batch response =
      (state.take response, batch.add (state.answer decoders response)) := by
  cases response with
  | shSubscribe id status =>
      simp only [handleTxResponse, TxState.take, TxState.answer]
      cases state.watchedSpksSh[id]? with
      | none =>
          rfl
      | some sh =>
          dsimp only [Option.bind_some]
          cases state.shSpk[sh]? <;> rfl
  | shNotification sh status =>
      simp only [handleTxResponse, TxState.take, TxState.answer]
      cases state.shSpk[sh]? <;> rfl
  | shGetHistory id history =>
      simp only [handleTxResponse, TxState.take, TxState.answer]
      cases found : state.reqIdSpk[id]? with
      | none =>
          rw [TxState.erase_absent found]
          rfl
      | some spk =>
          rfl
  | txGet id rawTx =>
      simp only [handleTxResponse, TxState.take, TxState.answer]
      cases decoders.transaction rawTx <;> rfl
  | txGetMerkle id merkle txPos =>
      simp only [handleTxResponse, TxState.take, TxState.answer]
      cases found : state.reqIdTxMerkle[id]? with
      | none =>
          rw [TxState.erase_absent found]
          rfl
      | some key =>
          cases decodeTxMerkleBranch decoders 0 merkle <;> rfl
  | header id rawHeader =>
      simp only [handleTxResponse, TxState.take, TxState.answer]
      cases found : state.reqIdHeader[id]? with
      | none =>
          rw [TxState.erase_absent found]
          rfl
      | some height =>
          cases decoders.header rawHeader <;> rfl
  | error reason =>
      simp only [handleTxResponse, TxState.take, TxState.answer]
      cases found : state.reqIdTxMerkle[reason.id]? with
      | some key =>
          rw [if_pos (BTreeMap.mem_iff_getElem?.mpr ⟨key, found⟩)]
          rfl
      | none =>
          have absent : reason.id ∉ state.reqIdTxMerkle := by
            intro member
            obtain ⟨key, held⟩ := BTreeMap.mem_iff_getElem?.mp member
            rw [found] at held
            cases held
          rw [if_neg absent]
          cases held : state.reqIdHeader[reason.id]? with
          | none =>
              rw [TxState.erase_absent held]
              rfl
          | some height =>
              rfl
  | headerNotif | batchHeaderNotif | ping | headers | txGetVerbose =>
      rfl

/-- A response that was handled, what its number had been asked for until then,
and the answer it was folded into. -/
structure Entry (Tx Header FromHexError HexError : Type) where
  response : Response
  asked : Option Method
  answer : Option (Answer Tx Header FromHexError HexError)

namespace Entry

/-- The number of the request an entry answers by name. -/
def answeredId
    (entry : Entry Tx Header FromHexError HexError) : Option Nat :=
  match entry.answer.bind Answer.request with
  | none => none
  | some _ => entry.response.id

/-- An answer that names a request names what its number was asked for, and a
status is one of a script with the script hash in question. -/
structure Carries
    (scriptHash : ScriptBuf → ScriptHash)
    (asked : Nat → Option Method)
    (entry : Entry Tx Header FromHexError HexError) : Prop where
  recorded :
    ∀ id method, entry.response.id = some id → entry.asked = some method →
      asked id = some method
  request :
    ∀ answer method, entry.answer = some answer →
      answer.request = some method →
        ∃ id, entry.response.id = some id ∧ entry.asked = some method
  script :
    ∀ spk status, entry.answer = some (.status spk status) →
      (∃ id, asked id = some (.scriptHashSubscribe spk)) ∧
        ((∃ other,
            entry.asked = some (.scriptHashSubscribe other) ∧
              scriptHash spk = scriptHash other) ∨
          entry.response = .shNotification (scriptHash spk) status)

/-- The entry is the arrival of a response that its request has to be answered
by: any response to a merkle or header request, a history to a history request,
a status to a subscription. -/
def Settles
    (entry : Entry Tx Header FromHexError HexError) : Method → Prop
  | .transactionGetMerkle _ _ | .blockHeader _ => True
  | .scriptHashGetHistory _ =>
      ∃ id rows, entry.response = .shGetHistory id rows
  | _ => False

end Entry

/-- The numbers answered by name, in order. -/
def answeredIds (log : List (Entry Tx Header FromHexError HexError)) :
    List Nat :=
  log.filterMap Entry.answeredId

/-- The tables, the index and the history of what was handled agree. -/
structure Routed
    (scriptHash : ScriptBuf → ScriptHash)
    (client : Client)
    (state : TxState)
    (log : List (Entry Tx Header FromHexError HexError)) : Prop where
  history :
    Tracks (fun spk ask => ask = Method.scriptHashGetHistory spk)
      state.reqIdSpk client.asked (answeredIds log)
  merkle :
    Tracks (fun key ask => ask = Method.transactionGetMerkle key.1 key.2)
      state.reqIdTxMerkle client.asked (answeredIds log)
  header :
    Tracks (fun height ask => ask = Method.blockHeader height)
      state.reqIdHeader client.asked (answeredIds log)
  watched :
    ∀ id sh, state.watchedSpksSh[id]? = some sh ↔
      ∃ spk, client.asked id = some (.scriptHashSubscribe spk) ∧
        scriptHash spk = sh
  named :
    ∀ sh spk, state.shSpk[sh]? = some spk →
      scriptHash spk = sh ∧
        ∃ id, client.asked id = some (.scriptHashSubscribe spk)
  covers :
    ∀ id spk, client.asked id = some (.scriptHashSubscribe spk) →
      ∃ other, state.shSpk[scriptHash spk]? = some other
  numbered : ∀ id, client.lastId < id → client.asked id = none
  known : ∀ id ∈ answeredIds log, client.asked id ≠ none
  carries : ∀ entry ∈ log, entry.Carries scriptHash client.asked
  once : (answeredIds log).Nodup
  settled :
    ∀ entry ∈ log, ∀ id method, entry.response.id = some id →
      entry.asked = some method → entry.Settles method →
        id ∈ answeredIds log

namespace Routed

variable {scriptHash : ScriptBuf → ScriptHash}

theorem fresh :
    Routed scriptHash Client.fresh TxState.empty
      ([] : List (Entry Tx Header FromHexError HexError)) where
  history := Tracks.empty
  merkle := Tracks.empty
  header := Tracks.empty
  watched := by simp [TxState.empty, Client.asked, Client.fresh]
  named := by simp [TxState.empty]
  covers := by simp [Client.asked, Client.fresh]
  numbered := by simp [Client.asked, Client.fresh]
  known := by simp [answeredIds]
  carries := by simp
  once := List.nodup_nil
  settled := by simp

section Handle

variable
    {client : Client}
    {state after : TxState}
    {log : List (Entry Tx Header FromHexError HexError)}
    {entry : Entry Tx Header FromHexError HexError}

theorem extend
    (routed : Routed scriptHash client state log)
    (subscriptions : after.watchedSpksSh = state.watchedSpksSh)
    (names : after.shSpk = state.shSpk)
    (history :
      Tracks (fun spk ask => ask = Method.scriptHashGetHistory spk)
        after.reqIdSpk client.asked (answeredIds (log ++ [entry])))
    (merkle :
      Tracks (fun key ask => ask = Method.transactionGetMerkle key.1 key.2)
        after.reqIdTxMerkle client.asked (answeredIds (log ++ [entry])))
    (header :
      Tracks (fun height ask => ask = Method.blockHeader height)
        after.reqIdHeader client.asked (answeredIds (log ++ [entry])))
    (open_ :
      ∀ id, entry.answeredId = some id →
        id ∉ answeredIds log ∧ client.asked id ≠ none)
    (carries : entry.Carries scriptHash client.asked)
    (settled :
      ∀ id method, entry.response.id = some id →
        entry.asked = some method → entry.Settles method →
          id ∈ answeredIds (log ++ [entry])) :
    Routed scriptHash client after (log ++ [entry]) := by
  have shape :
      answeredIds (log ++ [entry]) =
        answeredIds log ++ entry.answeredId.toList := by
    rw [answeredIds, List.filterMap_append]
    cases named : entry.answeredId <;>
      simp [answeredIds, named]
  refine
    { history := history
      merkle := merkle
      header := header
      watched := ?_
      named := ?_
      covers := ?_
      numbered := routed.numbered
      known := ?_
      carries := ?_
      once := ?_
      settled := ?_ }
  · rw [subscriptions]
    exact routed.watched
  · rw [names]
    exact routed.named
  · rw [names]
    exact routed.covers
  · intro id member
    rw [shape, List.mem_append, Option.mem_toList] at member
    rcases member with earlier | here
    · exact routed.known id earlier
    · exact (open_ id here).2
  · intro other member
    rcases List.mem_append.mp member with earlier | last
    · exact routed.carries other earlier
    · rw [List.mem_singleton.mp last]
      exact carries
  · rw [shape]
    refine List.nodup_append.mpr ⟨routed.once, ?_, ?_⟩
    · cases entry.answeredId <;> simp
    · intro id earlier other here same
      exact (open_ other (Option.mem_toList.mp here)).1 (same ▸ earlier)
  · intro other member id method numbered asked settles
    rcases List.mem_append.mp member with earlier | last
    · rw [shape]
      exact List.mem_append_left _
        (routed.settled other earlier id method numbered asked settles)
    · rw [List.mem_singleton.mp last] at numbered asked settles
      exact settled id method numbered asked settles

theorem passed
    (routed : Routed scriptHash client state log)
    (silent : entry.answeredId = none)
    (carries : entry.Carries scriptHash client.asked)
    (settled :
      ∀ id method, entry.response.id = some id →
        entry.asked = some method → entry.Settles method →
          id ∈ answeredIds log) :
    Routed scriptHash client state (log ++ [entry]) := by
  have shape : answeredIds (log ++ [entry]) = answeredIds log := by
    rw [answeredIds, List.filterMap_append]
    simp [silent, answeredIds]
  refine routed.extend rfl rfl ?_ ?_ ?_ ?_ carries ?_
  · rw [shape]
    exact routed.history
  · rw [shape]
    exact routed.merkle
  · rw [shape]
    exact routed.header
  · intro id impossible
    rw [silent] at impossible
    cases impossible
  · rw [shape]
    exact settled

theorem answered
    (routed : Routed scriptHash client state log)
    {id : Nat}
    (named : entry.answeredId = some id)
    (open_ : id ∉ answeredIds log)
    {method : Method}
    (known : client.asked id = some method)
    (subscriptions : after.watchedSpksSh = state.watchedSpksSh)
    (names : after.shSpk = state.shSpk)
    (history :
      after.reqIdSpk = state.reqIdSpk.erase id)
    (merkle : after.reqIdTxMerkle = state.reqIdTxMerkle.erase id)
    (header : after.reqIdHeader = state.reqIdHeader.erase id)
    (carries : entry.Carries scriptHash client.asked)
    (numbered : entry.response.id = some id) :
    Routed scriptHash client after (log ++ [entry]) := by
  have shape : answeredIds (log ++ [entry]) = answeredIds log ++ [id] := by
    rw [answeredIds, List.filterMap_append]
    simp [named, answeredIds]
  refine routed.extend subscriptions names ?_ ?_ ?_ ?_ carries ?_
  · rw [shape, history]
    exact routed.history.answer id
  · rw [shape, merkle]
    exact routed.merkle.answer id
  · rw [shape, header]
    exact routed.header.answer id
  · intro other same
    rw [named] at same
    cases same
    exact ⟨open_, by rw [known]; simp⟩
  · intro other _ same _ _
    rw [numbered] at same
    cases same
    rw [shape]
    exact List.mem_append_right _ List.mem_cons_self

end Handle

end Routed

def handled
    (decoders : Decoders Tx Header FromHexError HexError)
    (client : Client)
    (state : TxState)
    (response : Response) : Entry Tx Header FromHexError HexError where
  response := response
  asked := response.id.bind client.asked
  answer := state.answer decoders response

namespace Routed

section Response

variable
    {scriptHash : ScriptBuf → ScriptHash}
    {decoders : Decoders Tx Header FromHexError HexError}
    {client : Client}
    {state : TxState}
    {log : List (Entry Tx Header FromHexError HexError)}
    {response : Response}

theorem carries_handled
    (request :
      ∀ answer method, state.answer decoders response = some answer →
        answer.request = some method →
          ∃ id, response.id = some id ∧ client.asked id = some method)
    (script :
      ∀ spk status,
        state.answer decoders response = some (.status spk status) →
          (∃ id, client.asked id = some (.scriptHashSubscribe spk)) ∧
            ((∃ id other, response.id = some id ∧
                client.asked id = some (.scriptHashSubscribe other) ∧
                scriptHash spk = scriptHash other) ∨
              response = .shNotification (scriptHash spk) status)) :
    (handled decoders client state response).Carries scriptHash
      client.asked where
  recorded id method numbered known := by
    have same : response.id.bind client.asked = some method := known
    rw [show response.id = some id from numbered] at same
    exact same
  request answer method given names := by
    obtain ⟨id, numbered, known⟩ := request answer method given names
    refine ⟨id, numbered, ?_⟩
    show response.id.bind client.asked = some method
    rw [numbered]
    exact known
  script spk status given := by
    obtain ⟨subscribed, ⟨id, other, numbered, known, same⟩ | notified⟩ :=
      script spk status given
    · refine ⟨subscribed, Or.inl ⟨other, ?_, same⟩⟩
      show response.id.bind client.asked = _
      rw [numbered]
      exact known
    · exact ⟨subscribed, Or.inr notified⟩

/-- A response that is folded into nothing with a name, and settles nothing. -/
theorem handle_silent
    (routed : Routed scriptHash client state log)
    (silent :
      ∀ answer, state.answer decoders response = some answer →
        answer.request = none ∧ ∀ spk status, answer ≠ .status spk status)
    (idle :
      ∀ id method, response.id = some id → client.asked id = some method →
        (handled decoders client state response).Settles method →
          id ∈ answeredIds log) :
    Routed scriptHash client state
      (log ++ [handled decoders client state response]) := by
  refine routed.passed ?_ (carries_handled ?_ ?_) ?_
  · rw [Entry.answeredId, handled]
    dsimp only
    cases given : state.answer decoders response with
    | none =>
        rfl
    | some answer =>
        rw [Option.bind_some, (silent answer given).1]
  · intro answer method given names
    rw [(silent answer given).1] at names
    cases names
  · intro spk status given
    exact absurd rfl ((silent _ given).2 spk status)
  · intro id method numbered known settles
    have asked : response.id.bind client.asked = some method := known
    rw [show response.id = some id from numbered] at asked
    exact idle id method numbered asked settles

theorem handle_status
    (routed : Routed scriptHash client state log)
    (quiet :
      ∀ answer, state.answer decoders response = some answer →
        ∃ spk status, answer = .status spk status)
    (script :
      ∀ spk status,
        state.answer decoders response = some (.status spk status) →
          (∃ id, client.asked id = some (.scriptHashSubscribe spk)) ∧
            ((∃ id other, response.id = some id ∧
                client.asked id = some (.scriptHashSubscribe other) ∧
                scriptHash spk = scriptHash other) ∨
              response = .shNotification (scriptHash spk) status))
    (subscription :
      ∀ id method, response.id = some id → client.asked id = some method →
        ∃ spk, method = .scriptHashSubscribe spk) :
    Routed scriptHash client state
      (log ++ [handled decoders client state response]) := by
  refine routed.passed ?_ (carries_handled ?_ script) ?_
  · rw [Entry.answeredId, handled]
    dsimp only
    cases given : state.answer decoders response with
    | none =>
        rfl
    | some answer =>
        obtain ⟨spk, status, rfl⟩ := quiet answer given
        rfl
  · intro answer method given names
    obtain ⟨spk, status, rfl⟩ := quiet answer given
    cases names
  · intro id method numbered known settles
    have asked : response.id.bind client.asked = some method := known
    rw [show response.id = some id from numbered] at asked
    obtain ⟨spk, rfl⟩ := subscription id method numbered asked
    exact settles.elim

variable {id : Nat} {spk : ScriptBuf} {height : Nat}

theorem handle_answered
    (routed : Routed scriptHash client state log)
    (numbered : response.id = some id)
    (open_ : id ∉ answeredIds log)
    {answer : Answer Tx Header FromHexError HexError}
    (given : state.answer decoders response = some answer)
    {method : Method}
    (names : answer.request = some method)
    (known : client.asked id = some method)
    (subscriptions :
      (state.take response).watchedSpksSh = state.watchedSpksSh)
    (scripts : (state.take response).shSpk = state.shSpk)
    (history : (state.take response).reqIdSpk = state.reqIdSpk.erase id)
    (merkle :
      (state.take response).reqIdTxMerkle = state.reqIdTxMerkle.erase id)
    (header :
      (state.take response).reqIdHeader = state.reqIdHeader.erase id) :
    Routed scriptHash client (state.take response)
      (log ++ [handled decoders client state response]) := by
  refine routed.answered ?_ open_ known subscriptions scripts history merkle
    header (carries_handled ?_ ?_) numbered
  · rw [Entry.answeredId, handled]
    dsimp only
    rw [given, Option.bind_some, names]
    exact numbered
  · intro other otherMethod same otherNames
    rw [given] at same
    cases same
    rw [names] at otherNames
    cases otherNames
    exact ⟨id, numbered, known⟩
  · intro spk status same
    rw [given] at same
    cases same
    cases names

theorem handle_shSubscribe
    (routed : Routed scriptHash client state log)
    {status : Option String}
    (known : client.asked id = some (.scriptHashSubscribe spk)) :
    Routed scriptHash client state
      (log ++
        [handled decoders client state (.shSubscribe id status)]) := by
  have watched :
      state.watchedSpksSh[id]? = some (scriptHash spk) :=
    (routed.watched id _).mpr ⟨spk, known, rfl⟩
  obtain ⟨last, named⟩ := routed.covers id spk known
  have given :
      state.answer decoders (.shSubscribe id status) =
        some (.status last status) := by
    rw [TxState.answer, watched, Option.bind_some, named]
    rfl
  refine routed.handle_status ?_ ?_ ?_
  · intro answer same
    rw [given] at same
    cases same
    exact ⟨last, status, rfl⟩
  · intro other otherStatus same
    rw [given] at same
    cases same
    obtain ⟨hashes, asked⟩ := routed.named _ _ named
    exact ⟨asked, Or.inl ⟨id, spk, rfl, known, hashes⟩⟩
  · intro other method same asked
    cases same
    rw [known] at asked
    cases asked
    exact ⟨spk, rfl⟩

theorem handle_shNotification
    (routed : Routed scriptHash client state log)
    (sh : ScriptHash)
    (status : Option String) :
    Routed scriptHash client state
      (log ++
        [handled decoders client state (.shNotification sh status)]) := by
  refine routed.handle_status ?_ ?_ ?_
  · intro answer given
    rw [TxState.answer, Option.map_eq_some_iff] at given
    obtain ⟨spk, _, rfl⟩ := given
    exact ⟨spk, status, rfl⟩
  · intro spk other given
    rw [TxState.answer, Option.map_eq_some_iff] at given
    obtain ⟨found, named, same⟩ := given
    cases same
    obtain ⟨rfl, asked⟩ := routed.named _ _ named
    exact ⟨asked, Or.inr rfl⟩
  · intro id method impossible
    cases impossible

/-- A message to an answered request leaves the state and gives no answer. -/
theorem handle_repeated
    (routed : Routed scriptHash client state log)
    (same : state.take response = state)
    (silent : state.answer decoders response = none)
    (names : response.id = some id)
    (done : id ∈ answeredIds log) :
    Routed scriptHash client (state.take response)
      (log ++ [handled decoders client state response]) := by
  rw [same]
  refine routed.handle_silent ?_ ?_
  · intro answer given
    rw [silent] at given
    cases given
  · intro other method named _ _
    cases names.symm.trans named
    exact done

theorem handle_shGetHistory
    (routed : Routed scriptHash client state log)
    {rows : List (Txid × Int)}
    (known : client.asked id = some (.scriptHashGetHistory spk)) :
    Routed scriptHash client (state.take (.shGetHistory id rows))
      (log ++
        [handled decoders client state (.shGetHistory id rows)]) := by
  have otherMerkle : state.reqIdTxMerkle[id]? = none :=
    routed.merkle.closed known (by simp)
  have otherHeader : state.reqIdHeader[id]? = none :=
    routed.header.closed known (by simp)
  rcases routed.history.pending_or_answered spk known rfl with found | done
  · have given :
        state.answer decoders (.shGetHistory id rows) =
          some (.history spk
            (rows.map (fun row => (row.1, rowHeight row.2)))) := by
      rw [TxState.answer, found]
      rfl
    refine routed.handle_answered rfl (routed.history.unanswered found) given
      rfl known rfl rfl rfl ?_ ?_
    · exact (TxState.erase_absent otherMerkle).symm
    · exact (TxState.erase_absent otherHeader).symm
  · have closed := routed.history.closed_of_answered done
    refine routed.handle_repeated ?_ ?_ rfl done
    · rw [TxState.take, TxState.erase_absent closed]
    · rw [TxState.answer, closed]
      rfl

theorem handle_txGetMerkle
    (routed : Routed scriptHash client state log)
    {merkle : List String}
    {txPos : Nat}
    {txid : Txid}
    (known : client.asked id = some (.transactionGetMerkle txid height)) :
    Routed scriptHash client (state.take (.txGetMerkle id merkle txPos))
      (log ++
        [handled decoders client state (.txGetMerkle id merkle txPos)]) := by
  have otherHistory : state.reqIdSpk[id]? = none :=
    routed.history.closed known (by simp)
  have otherHeader : state.reqIdHeader[id]? = none :=
    routed.header.closed known (by simp)
  rcases routed.merkle.pending_or_answered (txid, height) known rfl with
    found | done
  · obtain ⟨answer, given, names⟩ :
        ∃ answer,
          state.answer decoders (.txGetMerkle id merkle txPos) =
              some answer ∧
            answer.request = some (.transactionGetMerkle txid height) := by
      rw [TxState.answer, found]
      cases decodeTxMerkleBranch decoders 0 merkle with
      | ok branch =>
          exact ⟨_, rfl, rfl⟩
      | error source =>
          exact ⟨_, rfl, rfl⟩
    refine routed.handle_answered rfl (routed.merkle.unanswered found) given
      names known rfl rfl ?_ rfl ?_
    · exact (TxState.erase_absent otherHistory).symm
    · exact (TxState.erase_absent otherHeader).symm
  · have closed := routed.merkle.closed_of_answered done
    refine routed.handle_repeated ?_ ?_ rfl done
    · rw [TxState.take, TxState.erase_absent closed]
    · rw [TxState.answer, closed]
      rfl

theorem handle_header
    (routed : Routed scriptHash client state log)
    {rawHeader : String}
    (known : client.asked id = some (.blockHeader height)) :
    Routed scriptHash client (state.take (.header id rawHeader))
      (log ++
        [handled decoders client state (.header id rawHeader)]) := by
  have otherHistory : state.reqIdSpk[id]? = none :=
    routed.history.closed known (by simp)
  have otherMerkle : state.reqIdTxMerkle[id]? = none :=
    routed.merkle.closed known (by simp)
  rcases routed.header.pending_or_answered height known rfl with found | done
  · obtain ⟨answer, given, names⟩ :
        ∃ answer,
          state.answer decoders (.header id rawHeader) = some answer ∧
            answer.request = some (.blockHeader height) := by
      rw [TxState.answer, found]
      cases decoders.header rawHeader with
      | ok header =>
          exact ⟨_, rfl, rfl⟩
      | error source =>
          exact ⟨_, rfl, rfl⟩
    refine routed.handle_answered rfl (routed.header.unanswered found) given
      names known rfl rfl ?_ ?_ rfl
    · exact (TxState.erase_absent otherHistory).symm
    · exact (TxState.erase_absent otherMerkle).symm
  · have closed := routed.header.closed_of_answered done
    refine routed.handle_repeated ?_ ?_ rfl done
    · rw [TxState.take, TxState.erase_absent closed]
    · rw [TxState.answer, closed]
      rfl

theorem handle_error
    (routed : Routed scriptHash client state log)
    (reason : ErrorResponse) :
    Routed scriptHash client (state.take (.error reason))
      (log ++ [handled decoders client state (.error reason)]) := by
  cases merkle : state.reqIdTxMerkle[reason.id]? with
  | some key =>
      obtain ⟨_, known, rfl⟩ := routed.merkle.asked_of_pending merkle
      have taken :
          state.take (.error reason) =
            { state with
              reqIdTxMerkle := state.reqIdTxMerkle.erase reason.id } := by
        rw [TxState.take,
          if_pos (BTreeMap.mem_iff_getElem?.mpr ⟨key, merkle⟩)]
      have given :
          state.answer decoders (.error reason) =
            some (.error (.merkleFetch key.1 key.2 reason)) := by
        rw [TxState.answer, merkle]
      refine routed.handle_answered rfl (routed.merkle.unanswered merkle) given
        rfl known ?_ ?_ ?_ ?_ ?_
      · rw [taken]
      · rw [taken]
      · rw [taken]
        exact (TxState.erase_absent
          (routed.history.closed known (by simp))).symm
      · rw [taken]
      · rw [taken]
        exact (TxState.erase_absent
          (routed.header.closed known (by simp))).symm
  | none =>
      have taken :
          state.take (.error reason) =
            { state with
              reqIdHeader := state.reqIdHeader.erase reason.id } := by
        rw [TxState.take, if_neg]
        intro member
        obtain ⟨key, held⟩ := BTreeMap.mem_iff_getElem?.mp member
        rw [merkle] at held
        cases held
      cases header : state.reqIdHeader[reason.id]? with
      | some height =>
          obtain ⟨_, known, rfl⟩ := routed.header.asked_of_pending header
          have given :
              state.answer decoders (.error reason) =
                some (.error (.headerFetch height reason)) := by
            rw [TxState.answer, merkle]
            dsimp only
            rw [header]
          refine routed.handle_answered rfl (routed.header.unanswered header)
            given rfl known ?_ ?_ ?_ ?_ ?_
          · rw [taken]
          · rw [taken]
          · rw [taken]
            exact (TxState.erase_absent
              (routed.history.closed known (by simp))).symm
          · rw [taken]
            exact (TxState.erase_absent merkle).symm
          · rw [taken]
      | none =>
          rw [taken, TxState.erase_absent header]
          refine routed.handle_silent ?_ ?_
          · intro answer given
            rw [TxState.answer, merkle] at given
            dsimp only at given
            rw [header] at given
            cases given
            exact ⟨rfl, by simp⟩
          · intro id method same known settles
            cases same
            cases method with
            | transactionGetMerkle txid height =>
                rcases routed.merkle.pending_or_answered (txid, height) known
                  rfl with found | done
                · rw [merkle] at found
                  cases found
                · exact done
            | blockHeader height =>
                rcases routed.header.pending_or_answered height known rfl with
                  found | done
                · rw [header] at found
                  cases found
                · exact done
            | scriptHashGetHistory spk =>
                obtain ⟨_, _, impossible⟩ := settles
                cases impossible
            | ping | scriptHashSubscribe | transactionGet | headersSubscribe
            | blockHeaders =>
                exact settles.elim

theorem handle
    (routed : Routed scriptHash client state log)
    (told : response.Told client.asked) :
    Routed scriptHash client (state.take response)
      (log ++ [handled decoders client state response]) := by
  -- A response that neither carries a name nor settles a request.
  have idle :
      ∀ {response : Response} {id : Nat} {method : Method},
        (∀ answer, state.answer decoders response = some answer →
          answer.request = none ∧ ∀ spk status, answer ≠ .status spk status) →
        (∀ other, response.id = some other → other = id) →
        client.asked id = some method →
        ¬ (handled decoders client state response).Settles method →
        Routed scriptHash client state
          (log ++ [handled decoders client state response]) := by
    intro response id method silent numbered known calm
    refine routed.handle_silent silent (fun other otherMethod same asked => ?_)
    rw [numbered other same, known] at asked
    cases asked
    exact fun settles => absurd settles calm
  have asked := told.asked
  cases response with
  | shSubscribe id status =>
      obtain ⟨spk, known⟩ := asked
      exact routed.handle_shSubscribe known
  | shNotification sh status =>
      exact routed.handle_shNotification sh status
  | shGetHistory id rows =>
      obtain ⟨spk, known⟩ := asked
      exact routed.handle_shGetHistory known
  | txGetMerkle id merkle txPos =>
      obtain ⟨txid, height, known⟩ := asked
      exact routed.handle_txGetMerkle known
  | header id rawHeader =>
      obtain ⟨height, known⟩ := asked
      exact routed.handle_header known
  | error reason =>
      exact routed.handle_error reason
  | txGet id rawTx =>
      obtain ⟨txid, known⟩ := asked
      refine idle (fun answer given => ?_) (fun _ same => by cases same; rfl)
        known (fun settles => settles.elim)
      rw [TxState.answer] at given
      cases decoded : decoders.transaction rawTx with
      | ok tx | error source =>
          rw [decoded] at given
          cases given
          exact ⟨rfl, by simp⟩
  | txGetVerbose id =>
      obtain ⟨txid, known⟩ := asked
      exact idle (fun _ impossible => by cases impossible)
        (fun _ same => by cases same; rfl) known (fun settles => settles.elim)
  | ping id =>
      exact idle (fun _ impossible => by cases impossible)
        (fun _ same => by cases same; rfl) asked (fun settles => settles.elim)
  | headers id rawHeaders =>
      obtain ⟨start, count, known⟩ := asked
      exact idle (fun _ impossible => by cases impossible)
        (fun _ same => by cases same; rfl) known (fun settles => settles.elim)
  | headerNotif id height rawHeader =>
      exact idle (fun _ impossible => by cases impossible)
        (fun _ impossible => by cases impossible) asked
        (fun settles => settles.elim)
  | batchHeaderNotif headers =>
      exact routed.handle_silent (fun _ impossible => by cases impossible)
        (fun _ _ impossible => by cases impossible)

end Response

end Routed

end Bwk.Electrum
