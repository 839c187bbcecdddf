import Bwk.ClientSession

namespace Bwk.Electrum

/-!
# The header listener

`electrum/src/client/header_listener.rs`: the same loop with one table of
requests for ranges of headers.  Every response is emitted as it is read;
nothing is grouped.
-/

def headerBytes : Nat := 80

section Decode

variable {HexError : Type}
variable (fromHex : String → Except HexError (List Nat))

def decodeHeaderHex
    (hex : String) : Except (DecodeError HexError) (List Nat) :=
  match fromHex hex with
  | .error source => .error (.headerHex source)
  | .ok bytes =>
      if bytes.length ≠ headerBytes then
        .error (.headerLength bytes.length)
      else
        .ok bytes

def chunkRawHeaders
    (hex : String) : Except (DecodeError HexError) (List (List Nat)) :=
  match fromHex hex with
  | .error source => .error (.headersHex source)
  | .ok bytes =>
      if bytes.length % headerBytes ≠ 0 then
        .error (.headersAlignment bytes.length)
      else
        .ok ((List.range (bytes.length / headerBytes)).map
          (fun index => (bytes.drop (index * headerBytes)).take headerBytes))

end Decode

/-- What the consumer asks for. -/
inductive HeaderRequest where
  | subscribe
  | getHeaders (start count : Nat)
  | wake
  | stop
  deriving Repr, DecidableEq

/-- The errors the consumer is told. -/
inductive HeaderError (HexError : Type) where
  | sendSubscribe
  | sendGetHeaders
  | decode (source : DecodeError HexError)
  | server (error : ErrorResponse)
  | getHeaders (start : Nat) (error : ErrorResponse)
  | getHeadersDecode (start : Nat) (source : DecodeError HexError)
  | transport

/-- What the consumer is told. -/
inductive HeaderResponse (HexError : Type) where
  | tip (height : Nat) (raw : List Nat)
  | header (height : Nat) (raw : List Nat)
  | batch (start : Nat) (raws : List (List Nat))
  | stopped
  | woken
  | error (reason : HeaderError HexError)

/-- The subscription's number and what is still open. -/
structure HeaderState where
  subscribeId : Option Nat
  getHeadersStarts : BTreeMap Nat Nat

/-- Nothing tracked. -/
def HeaderState.empty : HeaderState := ⟨none, ∅⟩

section

variable {HexError : Type}
variable (fromHex : String → Except HexError (List Nat))

/-- Every notified header at its own height, up to the first that is refused. -/
def emitHeaders : List (Nat × String) → List (HeaderResponse HexError)
  | [] => []
  | (height, rawHeader) :: rest =>
      match decodeHeaderHex fromHex rawHeader with
      | .error source => [.error (.decode source)]
      | .ok raw => .header (height % 2 ^ 32) raw :: emitHeaders rest

def handleHeaderResponse (state : HeaderState) :
    Response → HeaderState × List (HeaderResponse HexError)
  | .headerNotif id height rawHeader =>
      match decodeHeaderHex fromHex rawHeader with
      | .ok raw =>
          if state.subscribeId = some id then
            (state, [.tip (height % 2 ^ 32) raw])
          else
            (state, [.header (height % 2 ^ 32) raw])
      | .error source => (state, [.error (.decode source)])
  | .batchHeaderNotif notified => (state, emitHeaders fromHex notified)
  | .headers id rawHeaders =>
      match state.getHeadersStarts[id]? with
      | none => (state, [])
      | some start =>
          ({ state with
              getHeadersStarts := state.getHeadersStarts.erase id },
            [match chunkRawHeaders fromHex rawHeaders with
            | .ok raws => .batch start raws
            | .error source => .error (.getHeadersDecode start source)])
  | .error reason =>
      match state.getHeadersStarts[reason.id]? with
      | some start =>
          ({ state with
              getHeadersStarts := state.getHeadersStarts.erase reason.id },
            [.error (.getHeaders start reason)])
      | none => (state, [.error (.server reason)])
  | _ => (state, [])

def handleHeaderResponses (state : HeaderState) :
    List Response → HeaderState × List (HeaderResponse HexError)
  | [] => (state, [])
  | response :: rest =>
      let (next, out) := handleHeaderResponse fromHex state response
      let (final, others) := handleHeaderResponses next rest
      (final, out ++ others)

def dispatchHeader
    (sent : Bool)
    (client : Client)
    (state : HeaderState) :
    HeaderRequest →
      Client × HeaderState × List (HeaderResponse HexError) × Dispatch
  | .subscribe =>
      if state.subscribeId.isSome then
        (client, state, [], .empty)
      else
        let (registered, request) := client.register .headersSubscribe
        (registered, { state with subscribeId := some request.id },
          if sent then [] else [.error .sendSubscribe], .empty)
  | .getHeaders start count =>
      let (registered, request) := client.register (.blockHeaders start count)
      (registered,
        { state with
          getHeadersStarts := state.getHeadersStarts.insert request.id start },
        if sent then [] else [.error .sendGetHeaders], .sent [request])
  | .wake => (client, state, [.woken], .empty)
  | .stop => (client, state, [.stopped], .terminate)

def listenHeaders :
    Protocol HeaderState HeaderRequest (HeaderResponse HexError) where
  dispatch := dispatchHeader
  handle := handleHeaderResponses fromHex
  transportErr := .error .transport

end

/-- The range of headers a message names. -/
def HeaderResponse.start {HexError : Type} :
    HeaderResponse HexError → Option Nat
  | .batch start _
  | .error (.getHeaders start _)
  | .error (.getHeadersDecode start _) => some start
  | _ => none

def HeaderResponse.Own {HexError : Type} (message : HeaderResponse HexError) :
    Prop :=
  message = .stopped ∨ message = .woken ∨ message = .error .sendSubscribe ∨
    message = .error .sendGetHeaders ∨ message = .error .transport

/-- A response that was handled, what its number had been asked for until then,
and what was told of it. -/
structure HeaderEntry (HexError : Type) where
  response : Response
  asked : Option Method
  answers : List (HeaderResponse HexError)

namespace HeaderEntry

variable {HexError : Type}

/-- The number of the request an entry answers by name. -/
def answeredId (entry : HeaderEntry HexError) : Option Nat :=
  if entry.answers.any (fun message => message.start.isSome) then
    entry.response.id
  else
    none

/-- What is told under a start was asked for from that start on, and a tip is
the answer to the subscription. -/
structure Carries (entry : HeaderEntry HexError) : Prop where
  start :
    ∀ message ∈ entry.answers, ∀ start, message.start = some start →
      ∃ id count, entry.response.id = some id ∧
        entry.asked = some (.blockHeaders start count)
  tip :
    ∀ height raw, .tip height raw ∈ entry.answers →
      ∃ id whole rawHeader, entry.response = .headerNotif id whole rawHeader

end HeaderEntry

/-- The numbers answered by name, in order. -/
def answeredStarts {HexError : Type} (log : List (HeaderEntry HexError)) :
    List Nat :=
  log.filterMap HeaderEntry.answeredId

section

variable {HexError : Type}
variable (fromHex : String → Except HexError (List Nat))

/-- A message has the content of the response it was made of. -/
def HeaderResponse.Reports (response : Response) :
    HeaderResponse HexError → Prop
  | .tip height raw =>
      ∃ id whole rawHeader, response = .headerNotif id whole rawHeader ∧
        height = whole % 2 ^ 32 ∧
        decodeHeaderHex fromHex rawHeader = .ok raw
  | .header height raw =>
      ∃ whole rawHeader,
        ((∃ id, response = .headerNotif id whole rawHeader) ∨
          ∃ notified, response = .batchHeaderNotif notified ∧
            (whole, rawHeader) ∈ notified) ∧
        height = whole % 2 ^ 32 ∧
        decodeHeaderHex fromHex rawHeader = .ok raw
  | .batch _ raws =>
      ∃ id rawHeaders, response = .headers id rawHeaders ∧
        chunkRawHeaders fromHex rawHeaders = .ok raws
  | .error (.decode source) =>
      ∃ whole rawHeader,
        ((∃ id, response = .headerNotif id whole rawHeader) ∨
          ∃ notified, response = .batchHeaderNotif notified ∧
            (whole, rawHeader) ∈ notified) ∧
        decodeHeaderHex fromHex rawHeader = .error source
  | .error (.getHeadersDecode _ source) =>
      ∃ id rawHeaders, response = .headers id rawHeaders ∧
        chunkRawHeaders fromHex rawHeaders = .error source
  | .error (.getHeaders _ reason) | .error (.server reason) =>
      response = .error reason
  | _ => False

def handledHeader
    (client : Client)
    (state : HeaderState)
    (response : Response) : HeaderEntry HexError where
  response := response
  asked := response.id.bind client.asked
  answers := (handleHeaderResponse fromHex state response).2

def handledHeaders (client : Client) (state : HeaderState) :
    List Response → List (HeaderEntry HexError)
  | [] => []
  | response :: rest =>
      handledHeader fromHex client state response ::
        handledHeaders client
          (handleHeaderResponse fromHex state response).1 rest

end

abbrev HeaderOutput (HexError : Type) :=
  Output (HeaderEntry HexError) (HeaderResponse HexError)

abbrev HeaderSession (HexError : Type) :=
  Session HeaderState HeaderRequest (HeaderResponse HexError)
    (HeaderEntry HexError)

def HeaderSession.run
    {HexError : Type}
    (fromHex : String → Except HexError (List Nat))
    (events : List (ListenerEvent HeaderRequest)) : HeaderSession HexError :=
  Session.run (listenHeaders fromHex) (handledHeaders fromHex)
    HeaderState.empty events

/-- The messages of one event are what its responses are told as, in their
order; an event that reads nothing only has the listener's own messages. -/
structure HeaderOutput.Faithful
    {HexError : Type}
    (fromHex : String → Except HexError (List Nat))
    (output : HeaderOutput HexError) : Prop where
  own : output.responses = [] → ∀ message ∈ output.messages, message.Own
  all : output.entries.map HeaderEntry.response = output.responses
  asked :
    ∀ entry ∈ output.entries,
      entry.asked = entry.response.id.bind output.asked
  told :
    output.responses ≠ [] →
      output.messages = output.entries.flatMap HeaderEntry.answers
  reports :
    ∀ entry ∈ output.entries, ∀ message ∈ entry.answers,
      message.Reports fromHex entry.response

/-- The answers of a session name the requests they answer. -/
structure HeaderSession.Correct
    {HexError : Type}
    (fromHex : String → Except HexError (List Nat))
    (session : HeaderSession HexError) : Prop where
  emitted :
    session.listener.emitted = session.outputs.flatMap Output.messages
  faithful :
    ∀ output ∈ session.outputs, HeaderOutput.Faithful fromHex output
  carries : ∀ entry ∈ session.log, entry.Carries
  once : (answeredStarts session.log).Nodup
  settled :
    ∀ entry ∈ session.log, ∀ id start count, entry.response.id = some id →
      entry.asked = some (.blockHeaders start count) →
        (answeredStarts session.log).count id = 1

/-- The table, the index and the history of what was handled agree. -/
structure HeadersRouted
    {HexError : Type}
    (client : Client)
    (state : HeaderState)
    (log : List (HeaderEntry HexError)) : Prop where
  starts :
    Tracks (fun start ask => ∃ count, ask = Method.blockHeaders start count)
      state.getHeadersStarts client.asked (answeredStarts log)
  numbered : ∀ id, client.lastId < id → client.asked id = none
  known : ∀ id ∈ answeredStarts log, client.asked id ≠ none
  carries : ∀ entry ∈ log, entry.Carries
  once : (answeredStarts log).Nodup
  settled :
    ∀ entry ∈ log, ∀ id start count, entry.response.id = some id →
      entry.asked = some (.blockHeaders start count) →
        id ∈ answeredStarts log

namespace HeadersRouted

variable
    {HexError : Type}
    {fromHex : String → Except HexError (List Nat)}
    {client : Client}
    {state after : HeaderState}
    {log : List (HeaderEntry HexError)}
    {entry : HeaderEntry HexError}

theorem fresh :
    HeadersRouted Client.fresh HeaderState.empty
      ([] : List (HeaderEntry HexError)) where
  starts := by
    intro id key
    simp [HeaderState.empty, Client.asked, Client.fresh]
  numbered := by simp [Client.asked, Client.fresh]
  known := by simp [answeredStarts]
  carries := by simp
  once := List.nodup_nil
  settled := by simp

theorem number
    (routed : HeadersRouted client state log)
    (method : Method)
    (starts :
      Tracks (fun start ask => ∃ count, ask = Method.blockHeaders start count)
        after.getHeadersStarts
        (askedAlso client.asked (client.lastId + 1) method)
        (answeredStarts log)) :
    HeadersRouted (client.register method).1 after log := by
  have shape := client.asked_register method
  refine
    { starts := ?_
      numbered := ?_
      known := ?_
      carries := routed.carries
      once := routed.once
      settled := routed.settled }
  · rwa [shape]
  · intro id above
    have beyond : client.lastId + 1 < id := above
    rw [shape, askedAlso, if_neg (by omega)]
    exact routed.numbered id (by omega)
  · intro id member
    rw [shape, askedAlso]
    split
    · simp
    · exact routed.known id member

theorem next_fresh
    (routed : HeadersRouted client state log) :
    client.asked (client.lastId + 1) = none ∧
      client.lastId + 1 ∉ answeredStarts log := by
  have fresh := routed.numbered _ (Nat.lt_succ_self client.lastId)
  exact ⟨fresh, fun member => routed.known _ member fresh⟩

theorem number_untracked
    (routed : HeadersRouted client state log)
    {method : Method}
    (plain : ∀ start count, method ≠ .blockHeaders start count)
    (same : after.getHeadersStarts = state.getHeadersStarts) :
    HeadersRouted (client.register method).1 after log := by
  refine routed.number method ?_
  rw [same]
  refine routed.starts.ask_other routed.next_fresh.1 ?_
  rintro start ⟨count, rfl⟩
  exact plain start count rfl

theorem passed
    (routed : HeadersRouted client state log)
    (silent : ∀ message ∈ entry.answers, message.start = none)
    (carries : entry.Carries)
    (settled :
      ∀ id start count, entry.response.id = some id →
        entry.asked = some (.blockHeaders start count) →
          id ∈ answeredStarts log) :
    HeadersRouted client state (log ++ [entry]) := by
  have quiet : entry.answeredId = none := by
    rw [HeaderEntry.answeredId, if_neg]
    simpa using silent
  have shape : answeredStarts (log ++ [entry]) = answeredStarts log := by
    rw [answeredStarts, List.filterMap_append]
    simp [quiet, answeredStarts]
  refine
    { starts := ?_
      numbered := routed.numbered
      known := ?_
      carries := ?_
      once := ?_
      settled := ?_ }
  · rw [shape]
    exact routed.starts
  · rw [shape]
    exact routed.known
  · intro other member
    rcases List.mem_append.mp member with earlier | last
    · exact routed.carries other earlier
    · rw [List.mem_singleton.mp last]
      exact carries
  · rw [shape]
    exact routed.once
  · intro other member id start count numbered asked
    rw [shape]
    rcases List.mem_append.mp member with earlier | last
    · exact routed.settled other earlier id start count numbered asked
    · rw [List.mem_singleton.mp last] at numbered asked
      exact settled id start count numbered asked

theorem answered
    (routed : HeadersRouted client state log)
    {id start count : Nat}
    {message : HeaderResponse HexError}
    (numbered : entry.response.id = some id)
    (known : client.asked id = some (.blockHeaders start count))
    (recorded : entry.asked = some (.blockHeaders start count))
    (open_ : id ∉ answeredStarts log)
    (told : entry.answers = [message])
    (names : message.start = some start)
    (taken : after.getHeadersStarts = state.getHeadersStarts.erase id) :
    HeadersRouted client after (log ++ [entry]) := by
  have named : entry.answeredId = some id := by
    rw [HeaderEntry.answeredId, told, if_pos, numbered]
    simp [names]
  have shape :
      answeredStarts (log ++ [entry]) = answeredStarts log ++ [id] := by
    rw [answeredStarts, List.filterMap_append]
    simp [named, answeredStarts]
  refine
    { starts := ?_
      numbered := routed.numbered
      known := ?_
      carries := ?_
      once := ?_
      settled := ?_ }
  · rw [shape, taken]
    exact routed.starts.answer id
  · intro other member
    rw [shape, List.mem_append, List.mem_singleton] at member
    rcases member with earlier | rfl
    · exact routed.known other earlier
    · rw [known]
      simp
  · intro other member
    rcases List.mem_append.mp member with earlier | last
    · exact routed.carries other earlier
    · rw [List.mem_singleton.mp last]
      refine { start := ?_, tip := ?_ }
      · intro found listed other same
        rw [told, List.mem_singleton] at listed
        rw [listed, names] at same
        cases same
        exact ⟨id, count, numbered, recorded⟩
      · intro height raw listed
        rw [told, List.mem_singleton] at listed
        rw [← listed] at names
        cases names
  · rw [shape]
    refine List.nodup_append.mpr ⟨routed.once, by simp, ?_⟩
    intro other earlier last member same
    rw [List.mem_singleton.mp member] at same
    exact open_ (same ▸ earlier)
  · intro other member query first length queried asked
    rw [shape]
    rcases List.mem_append.mp member with earlier | last
    · exact List.mem_append_left _
        (routed.settled other earlier query first length queried asked)
    · rw [List.mem_singleton.mp last, numbered] at queried
      cases queried
      exact List.mem_append_right _ List.mem_cons_self

theorem handle_silent
    {response : Response}
    (routed : HeadersRouted client state log)
    (silent :
      ∀ message ∈ (handleHeaderResponse fromHex state response).2,
        message.start = none ∧
          ∀ height raw, message = .tip height raw →
            ∃ id whole rawHeader, response = .headerNotif id whole rawHeader)
    (settled :
      ∀ id start count, response.id = some id →
        client.asked id = some (.blockHeaders start count) →
          id ∈ answeredStarts log) :
    HeadersRouted client state
      (log ++ [handledHeader fromHex client state response]) := by
  refine routed.passed (fun message member => (silent message member).1)
    { start := ?_, tip := ?_ } ?_
  · intro message member start names
    rw [(silent message member).1] at names
    cases names
  · intro height raw member
    exact (silent _ member).2 height raw rfl
  · intro id start count numbered asked
    have known : response.id.bind client.asked =
        some (.blockHeaders start count) :=
      asked
    rw [show response.id = some id from numbered] at known
    exact settled id start count numbered known

theorem start_emitHeaders
    (notified : List (Nat × String)) :
    ∀ message ∈ emitHeaders fromHex notified,
      message.start = none ∧ ∀ height raw, message ≠ .tip height raw := by
  induction notified with
  | nil =>
      intro _ impossible
      cases impossible
  | cons notif rest inductionHypothesis =>
      obtain ⟨height, rawHeader⟩ := notif
      intro message member
      rw [emitHeaders] at member
      cases decoded : decodeHeaderHex fromHex rawHeader with
      | error source =>
          rw [decoded] at member
          rw [List.mem_singleton.mp member]
          exact ⟨rfl, by simp⟩
      | ok raw =>
          rw [decoded] at member
          rcases List.mem_cons.mp member with rfl | later
          · exact ⟨rfl, by simp⟩
          · exact inductionHypothesis message later

theorem handle_headers
    (routed : HeadersRouted client state log)
    {id start count : Nat}
    {rawHeaders : String}
    (known : client.asked id = some (.blockHeaders start count)) :
    HeadersRouted client
      (handleHeaderResponse fromHex state (.headers id rawHeaders)).1
      (log ++
        [handledHeader fromHex client state (.headers id rawHeaders)]) := by
  rcases routed.starts.pending_or_answered start known ⟨count, rfl⟩ with
    found | done
  · obtain ⟨message, told, names⟩ :
        ∃ message,
          (handleHeaderResponse fromHex state (.headers id rawHeaders)).2 =
              [message] ∧
            message.start = some start := by
      simp only [handleHeaderResponse, found]
      cases chunkRawHeaders fromHex rawHeaders with
      | ok raws =>
          exact ⟨_, rfl, rfl⟩
      | error source =>
          exact ⟨_, rfl, rfl⟩
    refine routed.answered rfl known known (routed.starts.unanswered found)
      told names ?_
    simp only [handleHeaderResponse, found]
  · have closed := routed.starts.closed_of_answered done
    have idle :
        handleHeaderResponse fromHex state (.headers id rawHeaders) =
          (state, []) := by
      simp only [handleHeaderResponse, closed]
    rw [show (handleHeaderResponse fromHex state (.headers id rawHeaders)).1 =
        state from congrArg Prod.fst idle]
    refine routed.handle_silent ?_ ?_
    · intro message member
      rw [idle] at member
      cases member
    · intro other _ _ same _
      cases same
      exact done

theorem handle_error
    (routed : HeadersRouted client state log)
    (reason : ErrorResponse) :
    HeadersRouted client
      (handleHeaderResponse fromHex state (.error reason)).1
      (log ++ [handledHeader fromHex client state (.error reason)]) := by
  cases found : state.getHeadersStarts[reason.id]? with
  | some start =>
      obtain ⟨_, known, count, rfl⟩ := routed.starts.asked_of_pending found
      have shape :
          handleHeaderResponse fromHex state (.error reason) =
            ({ state with
                getHeadersStarts := state.getHeadersStarts.erase reason.id },
              [.error (.getHeaders start reason)]) := by
        simp only [handleHeaderResponse, found]
      refine routed.answered rfl known known (routed.starts.unanswered found)
        (congrArg Prod.snd shape) rfl ?_
      rw [shape]
  | none =>
      have shape :
          handleHeaderResponse fromHex state (.error reason) =
            (state, [.error (.server reason)]) := by
        simp only [handleHeaderResponse, found]
      rw [show (handleHeaderResponse fromHex state (.error reason)).1 =
          state from congrArg Prod.fst shape]
      refine routed.handle_silent ?_ ?_
      · intro message member
        rw [shape] at member
        rw [List.mem_singleton.mp member]
        exact ⟨rfl, fun _ _ impossible => by cases impossible⟩
      · intro id start count same known
        cases same
        rcases routed.starts.pending_or_answered start known ⟨count, rfl⟩ with
          open_ | done
        · rw [found] at open_
          cases open_
        · exact done

theorem handle
    (routed : HeadersRouted client state log)
    {response : Response}
    (told : response.Told client.asked) :
    HeadersRouted client (handleHeaderResponse fromHex state response).1
      (log ++ [handledHeader fromHex client state response]) := by
  -- A response to a request of another kind, or to none.
  have idle :
      ∀ {response : Response} {id : Nat} {method : Method},
        handleHeaderResponse fromHex state response = (state, []) →
        (∀ other, response.id = some other → other = id) →
        client.asked id = some method →
        (∀ start count, method ≠ .blockHeaders start count) →
        HeadersRouted client
          (handleHeaderResponse fromHex state response).1
          (log ++ [handledHeader fromHex client state response]) := by
    intro response id method shape numbered known plain
    rw [show (handleHeaderResponse fromHex state response).1 = state from
      congrArg Prod.fst shape]
    refine routed.handle_silent ?_ ?_
    · intro message member
      rw [shape] at member
      cases member
    · intro other start count same asked
      rw [numbered other same, known] at asked
      cases asked
      exact absurd rfl (plain start count)
  have asked := told.asked
  cases response with
  | headers id rawHeaders =>
      obtain ⟨start, count, known⟩ := asked
      exact routed.handle_headers known
  | error reason =>
      exact routed.handle_error reason
  | headerNotif id height rawHeader =>
      have kept :
          (handleHeaderResponse fromHex state
            (.headerNotif id height rawHeader)).1 = state := by
        simp only [handleHeaderResponse]
        cases decodeHeaderHex fromHex rawHeader with
        | ok raw =>
            dsimp only
            split <;> rfl
        | error source =>
            rfl
      rw [kept]
      refine routed.handle_silent (fun message member => ?_)
        (fun _ _ _ impossible => by cases impossible)
      refine ⟨?_, fun _ _ _ => ⟨id, height, rawHeader, rfl⟩⟩
      simp only [handleHeaderResponse] at member
      cases decoded : decodeHeaderHex fromHex rawHeader with
      | ok raw =>
          rw [decoded] at member
          dsimp only at member
          split at member <;>
            · rw [List.mem_singleton.mp member]
              rfl
      | error source =>
          rw [decoded] at member
          rw [List.mem_singleton.mp member]
          rfl
  | batchHeaderNotif notified =>
      refine routed.handle_silent (fun message member => ?_)
        (fun _ _ _ impossible => by cases impossible)
      obtain ⟨silent, noTip⟩ := start_emitHeaders notified message member
      exact ⟨silent, fun height raw same => absurd same (noTip height raw)⟩
  | shNotification sh status =>
      exact routed.handle_silent (fun _ impossible => by cases impossible)
        (fun _ _ _ impossible => by cases impossible)
  | ping id =>
      exact idle rfl (fun _ same => by cases same; rfl) asked (by simp)
  | shSubscribe id | shGetHistory id | txGet id | txGetVerbose id
  | header id =>
      obtain ⟨_, known⟩ := asked
      exact idle rfl (fun _ same => by cases same; rfl) known (by simp)
  | txGetMerkle id =>
      obtain ⟨_, _, known⟩ := asked
      exact idle rfl (fun _ same => by cases same; rfl) known (by simp)

end HeadersRouted

section Correct

variable
    {HexError : Type}
    {fromHex : String → Except HexError (List Nat)}
    {client : Client}
    {state : HeaderState}
    {log : List (HeaderEntry HexError)}

theorem HeadersRouted.handleAll
    (routed : HeadersRouted client state log)
    (responses : List Response)
    (told : ∀ response ∈ responses, response.Told client.asked) :
    HeadersRouted client (handleHeaderResponses fromHex state responses).1
      (log ++ handledHeaders fromHex client state responses) := by
  induction responses generalizing state log with
  | nil =>
      rw [handledHeaders, List.append_nil]
      exact routed
  | cons response rest inductionHypothesis =>
      have first :
          HeadersRouted client (handleHeaderResponse fromHex state response).1
            (log ++ [handledHeader fromHex client state response]) :=
        routed.handle (told response List.mem_cons_self)
      have all :=
        inductionHypothesis first
          (fun other member => told other (List.mem_cons_of_mem _ member))
      rwa [List.append_assoc, List.singleton_append] at all

theorem reports_emitHeaders
    (notified : List (Nat × String)) :
    ∀ message ∈ emitHeaders fromHex notified,
      message.Reports fromHex (.batchHeaderNotif notified) := by
  suffices every :
      ∀ rest : List (Nat × String), (∀ notif ∈ rest, notif ∈ notified) →
        ∀ message ∈ emitHeaders fromHex rest,
          message.Reports fromHex (.batchHeaderNotif notified) from
    every notified (fun _ member => member)
  intro rest within
  induction rest with
  | nil =>
      intro _ impossible
      cases impossible
  | cons notif rest inductionHypothesis =>
      obtain ⟨height, rawHeader⟩ := notif
      have listed : (height, rawHeader) ∈ notified :=
        within _ List.mem_cons_self
      intro message member
      rw [emitHeaders] at member
      cases decoded : decodeHeaderHex fromHex rawHeader with
      | error source =>
          rw [decoded] at member
          rw [List.mem_singleton.mp member]
          exact ⟨height, rawHeader, Or.inr ⟨notified, rfl, listed⟩, decoded⟩
      | ok raw =>
          rw [decoded] at member
          rcases List.mem_cons.mp member with rfl | later
          · exact ⟨height, rawHeader, Or.inr ⟨notified, rfl, listed⟩, rfl,
              decoded⟩
          · exact inductionHypothesis
              (fun other known => within other (List.mem_cons_of_mem _ known))
              message later

theorem reports_handleHeaderResponse
    (state : HeaderState)
    (response : Response) :
    ∀ message ∈ (handleHeaderResponse fromHex state response).2,
      message.Reports fromHex response := by
  intro message member
  cases response with
  | headerNotif id height rawHeader =>
      simp only [handleHeaderResponse] at member
      cases decoded : decodeHeaderHex fromHex rawHeader with
      | ok raw =>
          rw [decoded] at member
          dsimp only at member
          split at member
          · rw [List.mem_singleton.mp member]
            exact ⟨id, height, rawHeader, rfl, rfl, decoded⟩
          · rw [List.mem_singleton.mp member]
            exact ⟨height, rawHeader, Or.inl ⟨id, rfl⟩, rfl, decoded⟩
      | error source =>
          rw [decoded] at member
          rw [List.mem_singleton.mp member]
          exact ⟨height, rawHeader, Or.inl ⟨id, rfl⟩, decoded⟩
  | batchHeaderNotif notified =>
      exact reports_emitHeaders notified message member
  | headers id rawHeaders =>
      simp only [handleHeaderResponse] at member
      cases found : state.getHeadersStarts[id]? with
      | none =>
          rw [found] at member
          cases member
      | some start =>
          rw [found] at member
          dsimp only at member
          cases decoded : chunkRawHeaders fromHex rawHeaders with
          | ok raws | error source =>
              rw [decoded] at member
              rw [List.mem_singleton.mp member]
              exact ⟨id, rawHeaders, rfl, decoded⟩
  | error reason =>
      simp only [handleHeaderResponse] at member
      split at member
      · rw [List.mem_singleton.mp member]
        rfl
      · rw [List.mem_singleton.mp member]
        rfl
  | shNotification | ping | header | txGet | txGetVerbose | shSubscribe
  | shGetHistory | txGetMerkle =>
      cases member

theorem faithful_handleHeaderResponses
    (client : Client)
    (state : HeaderState)
    (responses : List Response) :
    HeaderOutput.Faithful fromHex
      ⟨client.asked, responses,
        handledHeaders fromHex client state responses,
        (handleHeaderResponses fromHex state responses).2⟩ := by
  have folded :
      (handledHeaders fromHex client state responses).map
            HeaderEntry.response = responses ∧
        (∀ entry ∈ handledHeaders fromHex client state responses,
          entry.asked = entry.response.id.bind client.asked ∧
            ∀ message ∈ entry.answers,
              message.Reports fromHex entry.response) ∧
        (handleHeaderResponses fromHex state responses).2 =
          (handledHeaders fromHex client state responses).flatMap
            HeaderEntry.answers := by
    induction responses generalizing state with
    | nil =>
        exact ⟨rfl, by simp [handledHeaders], rfl⟩
    | cons response rest inductionHypothesis =>
        obtain ⟨all, each, told⟩ :=
          inductionHypothesis (handleHeaderResponse fromHex state response).1
        refine ⟨?_, ?_, ?_⟩
        · rw [handledHeaders, List.map_cons, all]
          rfl
        · intro entry member
          rcases List.mem_cons.mp member with rfl | later
          · exact ⟨rfl, reports_handleHeaderResponse state response⟩
          · exact each entry later
        · rw [handledHeaders, List.flatMap_cons, ← told]
          rfl
  obtain ⟨all, each, told⟩ := folded
  refine
    { own := ?_
      all := all
      asked := fun entry member => (each entry member).1
      told := fun _ => told
      reports := fun entry member => (each entry member).2 }
  rintro rfl message impossible
  cases impossible

/-- Dispatching keeps the table and the history in agreement, and only the
listener's own messages come of it. -/
theorem HeadersRouted.dispatch
    (routed : HeadersRouted client state log)
    (sent : Bool)
    (rq : HeaderRequest) :
    HeadersRouted ((listenHeaders fromHex).dispatch sent client state rq).1
        ((listenHeaders fromHex).dispatch sent client state rq).2.1 log ∧
      ∀ message ∈
          ((listenHeaders fromHex).dispatch sent client state rq).2.2.1,
        message.Own := by
  show HeadersRouted (dispatchHeader sent client state rq).1
      (dispatchHeader sent client state rq).2.1 log ∧
    ∀ message ∈ (dispatchHeader sent client state rq).2.2.1, _
  cases rq with
  | subscribe =>
      rw [dispatchHeader]
      split
      · exact ⟨routed, by simp⟩
      · refine ⟨routed.number_untracked (by simp) rfl, ?_⟩
        cases sent <;> simp [HeaderResponse.Own]
  | getHeaders start count =>
      have fresh := routed.next_fresh
      refine ⟨routed.number _ (routed.starts.ask fresh.2 ⟨count, rfl⟩ ?_), ?_⟩
      · rintro other ⟨length, same⟩
        cases same
        rfl
      · cases sent <;> simp [dispatchHeader, HeaderResponse.Own]
  | wake | stop =>
      exact ⟨routed, by simp [dispatchHeader, HeaderResponse.Own]⟩

theorem listenHeaders_keeps
    (fromHex : String → Except HexError (List Nat)) :
    (listenHeaders fromHex).Keeps (handledHeaders fromHex) HeadersRouted
      HeaderResponse.Own (HeaderOutput.Faithful fromHex) where
  nothing _ _ := rfl
  silent _ _ own :=
    { own := fun _ => own
      all := rfl
      asked := by simp
      told := fun nonempty => absurd rfl nonempty
      reports := by simp }
  transport := by simp [listenHeaders, HeaderResponse.Own]
  ping _ _ _ routed := routed.number_untracked (by simp) rfl
  dispatch sent _ _ _ rq routed := routed.dispatch sent rq
  read client state _ responses routed told :=
    ⟨routed.handleAll responses told,
      faithful_handleHeaderResponses client state responses⟩

theorem HeaderSession.correct_run
    (fromHex : String → Except HexError (List Nat))
    (events : List (ListenerEvent HeaderRequest)) :
    (HeaderSession.run fromHex events).Correct fromHex := by
  have holds := (listenHeaders_keeps fromHex).holds_run
    HeadersRouted.fresh events
  exact
    { emitted := holds.emitted
      faithful := holds.faithful
      carries := holds.agrees.carries
      once := holds.agrees.once
      settled := fun entry member id start count numbered asked =>
        List.count_eq_one_of_mem holds.agrees.once
          (holds.agrees.settled entry member id start count numbered
            asked) }

end Correct

namespace SessionSample

/-- Hex is never right here. -/
def decoders : Decoders Unit Unit Unit Unit where
  transaction _ := .error ()
  header _ := .error ()
  fromHex _ := .error ()

/-- A history request that is refused, and answered after all. -/
def events : List (ListenerEvent CoinRequest) :=
  [.request (.history [7]), .dispatch true,
    .read [.error ⟨1, 2, "busy"⟩],
    .read [.result 1 (.history [])]]

end SessionSample

end Bwk.Electrum
