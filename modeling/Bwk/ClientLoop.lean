import Bwk.ClientWire

namespace Bwk.Electrum

/-!
# Sessions of the listener loop

A session is any sequence of events of the loop, with a history of what each of
them read and put out.  What every listener has to show for its sessions is
stated once: that a ping, a dispatch and a read keep its tables in agreement
with the history.
-/

def Client.asked (client : Client) (id : Nat) : Option Method :=
  client.index[id]?.map Request.method

/-- What a response can be once the client has told what it answers. -/
def Response.Told (asked : Nat → Option Method) (response : Response) : Prop :=
  (∃ reason, response = .error reason) ∨
    (∃ sh status, response = .shNotification sh status) ∨
    (∃ headers, response = .batchHeaderNotif headers) ∨
    ∃ id method body,
      asked id = some method ∧ Response.ofResult id method body = some response

variable {client : Client} {response : Response}

theorem Response.told_of_tryParse
    {raw : RawResponse}
    (parsed : Response.tryParse client.index raw = some response) :
    response.Told client.asked := by
  cases raw with
  | error reason =>
      cases parsed
      exact Or.inl ⟨reason, rfl⟩
  | headersNotification notified =>
      cases parsed
      exact Or.inr (Or.inr (Or.inl ⟨notified, rfl⟩))
  | notification sh status =>
      cases parsed
      exact Or.inr (Or.inl ⟨sh, status, rfl⟩)
  | result id body =>
      rw [Response.tryParse] at parsed
      cases found : client.index[id]? with
      | none =>
          rw [found] at parsed
          cases parsed
      | some request =>
          rw [found] at parsed
          refine Or.inr (Or.inr (Or.inr ⟨id, request.method, body, ?_, parsed⟩))
          rw [Client.asked, found]
          rfl

theorem Response.Told.asked
    {asked : Nat → Option Method}
    (told : response.Told asked) :
    match response with
    | .headerNotif id _ _ => asked id = some .headersSubscribe
    | .ping id => asked id = some .ping
    | .header id _ => ∃ height, asked id = some (.blockHeader height)
    | .headers id _ =>
        ∃ start count, asked id = some (.blockHeaders start count)
    | .txGet id _ | .txGetVerbose id =>
        ∃ txid, asked id = some (.transactionGet txid)
    | .shSubscribe id _ =>
        ∃ spk, asked id = some (.scriptHashSubscribe spk)
    | .shGetHistory id _ =>
        ∃ spk, asked id = some (.scriptHashGetHistory spk)
    | .txGetMerkle id _ _ =>
        ∃ txid height, asked id = some (.transactionGetMerkle txid height)
    | .error _ | .shNotification _ _ | .batchHeaderNotif _ => True := by
  rcases told with ⟨reason, rfl⟩ | ⟨sh, status, rfl⟩ | ⟨headers, rfl⟩ |
    ⟨id, method, body, known, parsed⟩
  · exact True.intro
  · exact True.intro
  · exact True.intro
  · cases method <;> cases body <;>
      simp only [Response.ofResult, reduceCtorEq, Option.some.injEq] at parsed
    all_goals
      subst parsed
      simp [known]

theorem told_of_parseStrResponse
    {batch : List RawResponse}
    {responses : List Response}
    (parsed : parseStrResponse client.index batch = some responses) :
    ∀ response ∈ responses, response.Told client.asked := by
  induction batch generalizing responses with
  | nil =>
      cases parsed
      intro _ impossible
      cases impossible
  | cons raw rest inductionHypothesis =>
      rw [parseStrResponse, List.mapM_cons, Option.bind_eq_bind,
        Option.bind_eq_some_iff] at parsed
      obtain ⟨first, parsedFirst, tail⟩ := parsed
      rw [Option.bind_eq_bind, Option.bind_eq_some_iff] at tail
      obtain ⟨others, parsedOthers, shape⟩ := tail
      cases shape
      intro response member
      rcases List.mem_cons.mp member with rfl | later
      · exact Response.told_of_tryParse parsedFirst
      · exact inductionHypothesis parsedOthers response later

/-- What one event of a session put out, with what had been asked until then and
the responses that were read. -/
structure Output (Entry Rsp : Type) where
  asked : Nat → Option Method
  responses : List Response
  entries : List Entry
  messages : List Rsp

/-- A listener and a history of what each event put out. -/
structure Session (State Req Rsp Entry : Type) where
  listener : RunListener State Req Rsp
  outputs : List (Output Entry Rsp)

section Session

variable {State Req Rsp Entry : Type}

def RunListener.responsesOf (listener : RunListener State Req Rsp) :
    ListenerEvent Req → List Response
  | .read batch =>
      if listener.running then
        (parseStrResponse listener.client.index batch).getD []
      else
        []
  | _ => []

namespace Session

/-- A listener about to enter the loop. -/
def start (state : State) : Session State Req Rsp Entry where
  listener := RunListener.start state
  outputs := []

section

variable (protocol : Protocol State Req Rsp)
variable (handledAll : Client → State → List Response → List Entry)

def step
    (session : Session State Req Rsp Entry)
    (event : ListenerEvent Req) : Session State Req Rsp Entry :=
  let listener := session.listener
  let after := listener.step protocol event
  let responses := listener.responsesOf event
  { listener := after
    outputs :=
      session.outputs ++
        [{ asked := listener.client.asked
           responses := responses
           entries := handledAll listener.client listener.state responses
           messages := after.emitted.drop listener.emitted.length }] }

def run
    (state : State)
    (events : List (ListenerEvent Req)) : Session State Req Rsp Entry :=
  events.foldl (step protocol handledAll) (start state)

end

/-- Every response that was handled, in order. -/
def log (session : Session State Req Rsp Entry) : List Entry :=
  session.outputs.flatMap Output.entries

/-- The outputs so far are faithful, and the tables agree with the history. -/
structure Holds
    (agree : Client → State → List Entry → Prop)
    (faithful : Output Entry Rsp → Prop)
    (session : Session State Req Rsp Entry) : Prop where
  emitted :
    session.listener.emitted = session.outputs.flatMap Output.messages
  faithful : ∀ output ∈ session.outputs, faithful output
  agrees :
    agree session.listener.client session.listener.state session.log

end Session

/-- What a listener has to show: every way the loop calls it keeps its tables in
agreement with the history, and what it puts out is faithful. -/
structure Protocol.Keeps
    (protocol : Protocol State Req Rsp)
    (handledAll : Client → State → List Response → List Entry)
    (agree : Client → State → List Entry → Prop)
    (own : Rsp → Prop)
    (faithful : Output Entry Rsp → Prop) : Prop where
  nothing : ∀ client state, handledAll client state [] = []
  silent :
    ∀ asked messages, (∀ message ∈ messages, own message) →
      faithful ⟨asked, [], [], messages⟩
  transport : own protocol.transportErr
  ping :
    ∀ client state log, agree client state log →
      agree (client.register .ping).1 state log
  dispatch :
    ∀ sent client state log rq, agree client state log →
      agree (protocol.dispatch sent client state rq).1
          (protocol.dispatch sent client state rq).2.1 log ∧
        ∀ message ∈ (protocol.dispatch sent client state rq).2.2.1,
          own message
  read :
    ∀ client state log responses, agree client state log →
      (∀ response ∈ responses, response.Told client.asked) →
        agree client (protocol.handle state responses).1
            (log ++ handledAll client state responses) ∧
          faithful
            ⟨client.asked, responses, handledAll client state responses,
              (protocol.handle state responses).2⟩

namespace Protocol.Keeps

variable
    {protocol : Protocol State Req Rsp}
    {handledAll : Client → State → List Response → List Entry}
    {agree : Client → State → List Entry → Prop}
    {own : Rsp → Prop}
    {faithful : Output Entry Rsp → Prop}

theorem step
    (keeps : protocol.Keeps handledAll agree own faithful)
    {listener : RunListener State Req Rsp}
    {log : List Entry}
    (agrees : agree listener.client listener.state log)
    (event : ListenerEvent Req) :
    ∃ out,
      (listener.step protocol event).emitted = listener.emitted ++ out ∧
        agree (listener.step protocol event).client
          (listener.step protocol event).state
          (log ++
            handledAll listener.client listener.state
              (listener.responsesOf event)) ∧
        faithful
          ⟨listener.client.asked, listener.responsesOf event,
            handledAll listener.client listener.state
              (listener.responsesOf event), out⟩ := by
  have logged :
      log ++ handledAll listener.client listener.state [] = log := by
    rw [keeps.nothing, List.append_nil]
  have silent :
      ∀ messages, (∀ message ∈ messages, own message) →
        faithful
          ⟨listener.client.asked, [],
            handledAll listener.client listener.state [], messages⟩ := by
    rw [keeps.nothing]
    exact keeps.silent _
  have idle :
      ∃ out,
        listener.emitted = listener.emitted ++ out ∧
          agree listener.client listener.state
            (log ++ handledAll listener.client listener.state []) ∧
          faithful
            ⟨listener.client.asked, [],
              handledAll listener.client listener.state [], out⟩ :=
    ⟨[], (List.append_nil _).symm, logged.symm ▸ agrees, silent _ (by simp)⟩
  have transport :
      ∀ message ∈ [protocol.transportErr], own message := by
    intro message member
    rw [List.mem_singleton.mp member]
    exact keeps.transport
  unfold RunListener.step
  cases running : listener.running with
  | false =>
      have quiet : listener.responsesOf event = [] := by
        cases event <;> simp [RunListener.responsesOf, running]
      rw [quiet]
      exact idle
  | true =>
      rw [if_pos rfl]
      cases event with
      | ping sent =>
          have pinged := keeps.ping _ _ _ agrees
          cases sent with
          | true =>
              exact ⟨[], (List.append_nil _).symm, logged.symm ▸ pinged,
                silent _ (by simp)⟩
          | false =>
              exact ⟨_, rfl, logged.symm ▸ pinged, silent _ transport⟩
      | resend | request | disconnect =>
          exact idle
      | readError =>
          exact ⟨_, rfl, logged.symm ▸ agrees, silent _ transport⟩
      | dispatch sent =>
          simp only [RunListener.dispatchNext, RunListener.responsesOf]
          cases listener.lastRequest with
          | some batch =>
              exact idle
          | none =>
              cases listener.inbox with
              | nil =>
                  exact idle
              | cons rq rest =>
                  obtain ⟨kept, messages⟩ := keeps.dispatch sent _ _ _ rq agrees
                  exact ⟨_, rfl, logged.symm ▸ kept, silent _ messages⟩
      | read batch =>
          simp only [RunListener.read, RunListener.responsesOf, running,
            if_true]
          cases parsed :
              parseStrResponse listener.client.index batch with
          | none =>
              exact ⟨_, rfl, logged.symm ▸ agrees, silent _ transport⟩
          | some responses =>
              obtain ⟨kept, faithfully⟩ :=
                keeps.read _ _ _ responses agrees
                  (told_of_parseStrResponse parsed)
              exact ⟨_, rfl, kept, faithfully⟩

theorem holds_step
    (keeps : protocol.Keeps handledAll agree own faithful)
    {session : Session State Req Rsp Entry}
    (holds : session.Holds agree faithful)
    (event : ListenerEvent Req) :
    (session.step protocol handledAll event).Holds agree faithful := by
  obtain ⟨out, emitted, agrees, faithfully⟩ := keeps.step holds.agrees event
  have messages :
      (session.listener.step protocol event).emitted.drop
          session.listener.emitted.length = out := by
    rw [emitted, List.drop_left]
  refine { emitted := ?_, faithful := ?_, agrees := ?_ }
  · simp only [Session.step, messages, List.flatMap_append,
      List.flatMap_cons, List.flatMap_nil, List.append_nil]
    rw [emitted, holds.emitted]
  · intro output member
    simp only [Session.step, messages, List.mem_append,
      List.mem_singleton] at member
    rcases member with earlier | rfl
    · exact holds.faithful output earlier
    · exact faithfully
  · simp only [Session.step, Session.log, List.flatMap_append,
      List.flatMap_cons, List.flatMap_nil, List.append_nil]
    exact agrees

theorem holds_run
    (keeps : protocol.Keeps handledAll agree own faithful)
    {state : State}
    (begun : agree Client.fresh state [])
    (events : List (ListenerEvent Req)) :
    (Session.run protocol handledAll state events).Holds agree faithful := by
  suffices every :
      ∀ session : Session State Req Rsp Entry,
        session.Holds agree faithful →
          (events.foldl (Session.step protocol handledAll) session).Holds
            agree faithful from
    every (Session.start state)
      { emitted := rfl, faithful := by simp [Session.start], agrees := begun }
  induction events with
  | nil =>
      exact fun _ holds => holds
  | cons event rest inductionHypothesis =>
      exact fun _ holds =>
        inductionHypothesis _ (keeps.holds_step holds event)

end Protocol.Keeps

end Session

end Bwk.Electrum
