import Bwk.ClientDispatch

namespace Bwk.Electrum

/-!
# A whole session of the coin listener

What the consumer is told by one read is what the responses of that read are
folded into: nothing is made up, and an answer is only missing when a later one
about the same script or height took its place.  A session is any sequence of
events of the loop, with a history of what each of them put out.
-/

variable {Tx Header FromHexError HexError : Type}

/-- A message to the consumer contains an answer. -/
def CoinResponse.Tells :
    CoinResponse Tx Header FromHexError HexError →
      Answer Tx Header FromHexError HexError → Prop
  | .status statuses, .status spk value => statuses[spk]? = some value
  | .history histories, .history spk rows => histories[spk]? = some rows
  | .txs listed, .tx one => one ∈ listed
  | .headers found, .header height decoded => found[height]? = some decoded
  | .txMerkle txid height branch pos, .merkle txid' height' branch' pos' =>
      txid = txid' ∧ height = height' ∧ branch = branch' ∧ pos = pos'
  | .error reason, .error reason' => reason = reason'
  | _, _ => False

/-- A later answer takes the place of an earlier one. -/
def Answer.Replaces :
    Answer Tx Header FromHexError HexError →
      Answer Tx Header FromHexError HexError → Prop
  | .status spk _, .status spk' _ => spk = spk'
  | .history spk _, .history spk' _ => spk = spk'
  | .header height _, .header height' _ => height = height'
  | _, _ => False

namespace TxBatch

variable {batch : TxBatch Tx Header FromHexError HexError}

def Contains
    (batch : TxBatch Tx Header FromHexError HexError) :
    Answer Tx Header FromHexError HexError → Prop
  | .status spk value => batch.statuses[spk]? = some value
  | .history spk rows => batch.histories[spk]? = some rows
  | .tx one => one ∈ batch.txs
  | .header height decoded => batch.headers[height]? = some decoded
  | .merkle txid height branch pos =>
      .txMerkle txid height branch pos ∈ batch.trailing
  | .error reason => .error reason ∈ batch.trailing

/-- What trails the groups are merkle branches and errors. -/
def Tidy (batch : TxBatch Tx Header FromHexError HexError) : Prop :=
  ∀ message ∈ batch.trailing,
    (∃ txid height branch pos,
        message = .txMerkle txid height branch pos) ∨
      ∃ reason, message = .error reason

theorem tidy_empty :
    (empty : TxBatch Tx Header FromHexError HexError).Tidy := by
  intro _ impossible
  cases impossible

theorem Tidy.add
    (tidy : batch.Tidy)
    (answer : Option (Answer Tx Header FromHexError HexError)) :
    (batch.add answer).Tidy := by
  cases answer with
  | none =>
      exact tidy
  | some answer =>
      cases answer with
      | status | history | tx | header =>
          exact tidy
      | merkle txid height branch pos =>
          intro message member
          rcases List.mem_append.mp member with earlier | last
          · exact tidy message earlier
          · exact Or.inl ⟨txid, height, branch, pos, List.mem_singleton.mp last⟩
      | error reason =>
          intro message member
          rcases List.mem_append.mp member with earlier | last
          · exact tidy message earlier
          · exact Or.inr ⟨reason, List.mem_singleton.mp last⟩

theorem contains_add_self
    (batch : TxBatch Tx Header FromHexError HexError)
    (answer : Answer Tx Header FromHexError HexError) :
    (batch.add (some answer)).Contains answer := by
  cases answer <;> simp [TxBatch.add, Contains]

variable {answer : Answer Tx Header FromHexError HexError}

theorem Contains.add
    (contains : batch.Contains answer)
    (next : Option (Answer Tx Header FromHexError HexError)) :
    (batch.add next).Contains answer ∨
      ∃ other, next = some other ∧ other.Replaces answer := by
  cases next with
  | none =>
      exact Or.inl contains
  | some other =>
      by_cases replaces : other.Replaces answer
      · exact Or.inr ⟨other, rfl, replaces⟩
      · refine Or.inl ?_
        cases other <;> cases answer <;>
          simp_all [TxBatch.add, Contains, Answer.Replaces]

theorem contains_of_add
    {next : Option (Answer Tx Header FromHexError HexError)}
    (contains : (batch.add next).Contains answer) :
    batch.Contains answer ∨ next = some answer := by
  cases next with
  | none =>
      exact Or.inl contains
  | some other =>
      cases other <;> cases answer <;>
        simp only [TxBatch.add, Contains, BTreeMap.getElem?_insert_eq,
          List.mem_append, List.mem_singleton, Option.some.injEq,
          Answer.status.injEq, Answer.history.injEq, Answer.tx.injEq,
          Answer.header.injEq, Answer.merkle.injEq, Answer.error.injEq,
          CoinResponse.txMerkle.injEq, CoinResponse.error.injEq,
          reduceCtorEq, or_false] at contains ⊢
      all_goals first
        | exact contains
        | grind

def ofAnswers
    (answers : List (Option (Answer Tx Header FromHexError HexError))) :
    TxBatch Tx Header FromHexError HexError :=
  answers.foldl TxBatch.add TxBatch.empty

theorem contains_foldl_of_contains
    (contains : batch.Contains answer)
    (answers : List (Option (Answer Tx Header FromHexError HexError))) :
    (answers.foldl TxBatch.add batch).Contains answer ∨
      ∃ other, some other ∈ answers ∧ other.Replaces answer := by
  induction answers generalizing batch with
  | nil =>
      exact Or.inl contains
  | cons next rest inductionHypothesis =>
      rcases contains.add next with still | ⟨other, rfl, replaces⟩
      · rcases inductionHypothesis still with holds | ⟨other, listed, replaces⟩
        · exact Or.inl holds
        · exact Or.inr ⟨other, List.mem_cons_of_mem _ listed, replaces⟩
      · exact Or.inr ⟨other, List.mem_cons_self, replaces⟩

theorem contains_of_foldl
    (answers : List (Option (Answer Tx Header FromHexError HexError)))
    (contains : (answers.foldl TxBatch.add batch).Contains answer) :
    batch.Contains answer ∨ some answer ∈ answers := by
  induction answers generalizing batch with
  | nil =>
      exact Or.inl contains
  | cons next rest inductionHypothesis =>
      rcases inductionHypothesis contains with before | later
      · rcases contains_of_add before with first | rfl
        · exact Or.inl first
        · exact Or.inr List.mem_cons_self
      · exact Or.inr (List.mem_cons_of_mem _ later)

theorem tidy_foldl
    (tidy : batch.Tidy)
    (answers : List (Option (Answer Tx Header FromHexError HexError))) :
    (answers.foldl TxBatch.add batch).Tidy := by
  induction answers generalizing batch with
  | nil =>
      exact tidy
  | cons next rest inductionHypothesis =>
      exact inductionHypothesis (tidy.add next)

theorem ne_empty_of_found
    {Key Value : Type}
    [Ord Key]
    [Std.TransOrd Key]
    {map : BTreeMap Key Value}
    {key : Key}
    {value : Value}
    (found : map[key]? = some value) :
    map ≠ ∅ := by
  rintro rfl
  simp at found

theorem mem_drainBatch
    (batch : TxBatch Tx Header FromHexError HexError)
    (message : CoinResponse Tx Header FromHexError HexError) :
    message ∈ drainBatch batch ↔
      (batch.histories ≠ ∅ ∧ message = .history batch.histories) ∨
        (batch.statuses ≠ ∅ ∧ message = .status batch.statuses) ∨
        (batch.txs ≠ [] ∧ message = .txs batch.txs) ∨
        (batch.headers ≠ ∅ ∧ message = .headers batch.headers) ∨
        message ∈ batch.trailing := by
  simp only [drainBatch, List.mem_append, Std.ExtTreeMap.isEmpty_iff,
    List.isEmpty_iff]
  split <;> split <;> split <;> split <;> simp_all [or_assoc]

theorem told_drainBatch_iff
    (tidy : batch.Tidy)
    (answer : Answer Tx Header FromHexError HexError) :
    (∃ message ∈ drainBatch batch, message.Tells answer) ↔
      batch.Contains answer := by
  constructor
  · rintro ⟨message, sent, tells⟩
    rcases (mem_drainBatch batch message).mp sent with
      ⟨_, rfl⟩ | ⟨_, rfl⟩ | ⟨_, rfl⟩ | ⟨_, rfl⟩ | trails
    · cases answer <;> first | exact tells | exact tells.elim
    · cases answer <;> first | exact tells | exact tells.elim
    · cases answer <;> first | exact tells | exact tells.elim
    · cases answer <;> first | exact tells | exact tells.elim
    · rcases tidy message trails with
        ⟨txid, height, branch, pos, rfl⟩ | ⟨reason, rfl⟩
      · cases answer with
        | merkle =>
            obtain ⟨rfl, rfl, rfl, rfl⟩ := tells
            exact trails
        | status | history | tx | header | error =>
            exact tells.elim
      · cases answer with
        | error =>
            obtain rfl := tells
            exact trails
        | status | history | tx | header | merkle =>
            exact tells.elim
  · intro contains
    cases answer with
    | status spk value =>
        refine ⟨.status batch.statuses, ?_, contains⟩
        refine (mem_drainBatch batch _).mpr (Or.inr (Or.inl ⟨?_, rfl⟩))
        exact ne_empty_of_found contains
    | history spk rows =>
        refine ⟨.history batch.histories, ?_, contains⟩
        refine (mem_drainBatch batch _).mpr (Or.inl ⟨?_, rfl⟩)
        exact ne_empty_of_found contains
    | tx one =>
        refine ⟨.txs batch.txs, ?_, contains⟩
        refine (mem_drainBatch batch _).mpr
          (Or.inr (Or.inr (Or.inl ⟨?_, rfl⟩)))
        exact List.ne_nil_of_mem contains
    | header height decoded =>
        refine ⟨.headers batch.headers, ?_, contains⟩
        refine (mem_drainBatch batch _).mpr
          (Or.inr (Or.inr (Or.inr (Or.inl ⟨?_, rfl⟩))))
        exact ne_empty_of_found contains
    | merkle txid height branch pos =>
        refine ⟨.txMerkle txid height branch pos, ?_, rfl, rfl, rfl, rfl⟩
        exact (mem_drainBatch batch _).mpr
          (Or.inr (Or.inr (Or.inr (Or.inr contains))))
    | error reason =>
        refine ⟨.error reason, ?_, rfl⟩
        exact (mem_drainBatch batch _).mpr
          (Or.inr (Or.inr (Or.inr (Or.inr contains))))

/-- An answer of a batch is told unless a later one of the batch replaces
it. -/
theorem contains_ofAnswers
    (before after : List (Option (Answer Tx Header FromHexError HexError)))
    (answer : Answer Tx Header FromHexError HexError) :
    (ofAnswers (before ++ some answer :: after)).Contains answer ∨
      ∃ other, some other ∈ after ∧ other.Replaces answer := by
  rw [ofAnswers, List.foldl_append, List.foldl_cons]
  exact contains_foldl_of_contains (contains_add_self _ answer) after

end TxBatch

/-- An answer has the content of the response it was made of. -/
def Answer.Reports
    (decoders : Decoders Tx Header FromHexError HexError)
    (response : Response) :
    Answer Tx Header FromHexError HexError → Prop
  | .status _ value =>
      (∃ id, response = .shSubscribe id value) ∨
        ∃ sh, response = .shNotification sh value
  | .history _ rows =>
      ∃ id history, response = .shGetHistory id history ∧
        rows = history.map (fun row => (row.1, rowHeight row.2))
  | .tx one =>
      ∃ id rawTx, response = .txGet id rawTx ∧
        decoders.transaction rawTx = .ok one
  | .header _ decoded =>
      ∃ id rawHeader, response = .header id rawHeader ∧
        decoders.header rawHeader = .ok decoded
  | .merkle _ _ branch pos =>
      ∃ id merkle txPos, response = .txGetMerkle id merkle txPos ∧
        decodeTxMerkleBranch decoders 0 merkle = .ok branch ∧
        pos = txPos % 2 ^ 32
  | .error (.txDecode source) =>
      ∃ id rawTx, response = .txGet id rawTx ∧
        decoders.transaction rawTx = .error source
  | .error (.merkleDecode _ _ source) =>
      ∃ id merkle txPos, response = .txGetMerkle id merkle txPos ∧
        decodeTxMerkleBranch decoders 0 merkle = .error source
  | .error (.headerDecode _ source) =>
      ∃ id rawHeader, response = .header id rawHeader ∧
        decoders.header rawHeader = .error source
  | .error (.merkleFetch _ _ reason) | .error (.headerFetch _ reason)
  | .error (.server reason) => response = .error reason
  | .error .send | .error .transport => False

theorem TxState.reports_of_answer
    {decoders : Decoders Tx Header FromHexError HexError}
    {state : TxState}
    {response : Response}
    {answer : Answer Tx Header FromHexError HexError}
    (given : state.answer decoders response = some answer) :
    answer.Reports decoders response := by
  cases response with
  | shSubscribe id status =>
      rw [TxState.answer, Option.map_eq_some_iff] at given
      obtain ⟨spk, _, rfl⟩ := given
      exact Or.inl ⟨id, rfl⟩
  | shNotification sh status =>
      rw [TxState.answer, Option.map_eq_some_iff] at given
      obtain ⟨spk, _, rfl⟩ := given
      exact Or.inr ⟨sh, rfl⟩
  | shGetHistory id history =>
      rw [TxState.answer, Option.map_eq_some_iff] at given
      obtain ⟨spk, _, rfl⟩ := given
      exact ⟨id, history, rfl, rfl⟩
  | txGet id rawTx =>
      rw [TxState.answer] at given
      cases decoded : decoders.transaction rawTx with
      | ok one | error source =>
          rw [decoded] at given
          cases given
          exact ⟨id, rawTx, rfl, decoded⟩
  | txGetMerkle id merkle txPos =>
      rw [TxState.answer, Option.map_eq_some_iff] at given
      obtain ⟨key, _, same⟩ := given
      cases decoded : decodeTxMerkleBranch decoders 0 merkle with
      | ok branch =>
          rw [decoded] at same
          cases same
          exact ⟨id, merkle, txPos, rfl, decoded, rfl⟩
      | error source =>
          rw [decoded] at same
          cases same
          exact ⟨id, merkle, txPos, rfl, decoded⟩
  | header id rawHeader =>
      rw [TxState.answer, Option.map_eq_some_iff] at given
      obtain ⟨height, _, same⟩ := given
      cases decoded : decoders.header rawHeader with
      | ok found | error source =>
          rw [decoded] at same
          cases same
          exact ⟨id, rawHeader, rfl, decoded⟩
  | error reason =>
      simp only [TxState.answer] at given
      split at given
      · cases given
        rfl
      · split at given
        · cases given
          rfl
        · cases given
          rfl
  | headerNotif | batchHeaderNotif | ping | headers | txGetVerbose =>
      cases given

/-- A response that the consumer has to hear of is folded into an answer. -/
def Entry.Heard
    (scriptHash : ScriptBuf → ScriptHash)
    (asked : Nat → Option Method)
    (entry : Entry Tx Header FromHexError HexError) : Prop :=
  match entry.response with
  | .shSubscribe _ _ | .txGet _ _ | .error _ => entry.answer ≠ none
  | .shNotification sh _ =>
      (∃ id spk, asked id = some (.scriptHashSubscribe spk) ∧
        scriptHash spk = sh) → entry.answer ≠ none
  | _ => True

def handledAll
    (decoders : Decoders Tx Header FromHexError HexError)
    (client : Client)
    (state : TxState) :
    List Response → List (Entry Tx Header FromHexError HexError)
  | [] => []
  | response :: rest =>
      handled decoders client state response ::
        handledAll decoders client (state.take response) rest

theorem map_response_handledAll
    (decoders : Decoders Tx Header FromHexError HexError)
    (client : Client)
    (state : TxState)
    (responses : List Response) :
    (handledAll decoders client state responses).map Entry.response =
      responses := by
  induction responses generalizing state with
  | nil =>
      rfl
  | cons response rest inductionHypothesis =>
      rw [handledAll, List.map_cons, inductionHypothesis]
      rfl

theorem handleTxResponses_eq
    (decoders : Decoders Tx Header FromHexError HexError)
    (client : Client)
    (state : TxState)
    (responses : List Response) :
    handleTxResponses decoders state responses =
      (responses.foldl TxState.take state,
        drainBatch (TxBatch.ofAnswers
          ((handledAll decoders client state responses).map
            Entry.answer))) := by
  have folded :
      ∀ (state : TxState) (batch : TxBatch Tx Header FromHexError HexError),
        responses.foldl
            (fun progress response =>
              handleTxResponse decoders progress.1 progress.2 response)
            (state, batch) =
          (responses.foldl TxState.take state,
            ((handledAll decoders client state responses).map
              Entry.answer).foldl TxBatch.add batch) := by
    induction responses with
    | nil =>
        intro state batch
        rfl
    | cons response rest inductionHypothesis =>
        intro state batch
        rw [List.foldl_cons, handleTxResponse_eq, inductionHypothesis]
        rfl
  simp only [handleTxResponses, folded state TxBatch.empty]
  rfl

section Read

variable
    {scriptHash : ScriptBuf → ScriptHash}
    {decoders : Decoders Tx Header FromHexError HexError}
    {client : Client}
    {state : TxState}
    {log : List (Entry Tx Header FromHexError HexError)}

theorem Routed.handleAll
    (routed : Routed scriptHash client state log)
    (responses : List Response)
    (told : ∀ response ∈ responses, response.Told client.asked) :
    Routed scriptHash client (responses.foldl TxState.take state)
      (log ++ handledAll decoders client state responses) := by
  induction responses generalizing state log with
  | nil =>
      rw [handledAll, List.append_nil]
      exact routed
  | cons response rest inductionHypothesis =>
      have first :
          Routed scriptHash client (state.take response)
            (log ++ [handled decoders client state response]) :=
        routed.handle (told response List.mem_cons_self)
      have all :=
        inductionHypothesis first
          (fun other member => told other (List.mem_cons_of_mem _ member))
      rwa [List.append_assoc, List.singleton_append] at all

theorem Routed.heard
    (routed : Routed scriptHash client state log)
    {response : Response}
    (told : response.Told client.asked) :
    (handled decoders client state response).Heard scriptHash
      client.asked := by
  have asked := told.asked
  cases response with
  | shSubscribe id status =>
      obtain ⟨spk, known⟩ := asked
      have watched :
          state.watchedSpksSh[id]? = some (scriptHash spk) :=
        (routed.watched id _).mpr ⟨spk, known, rfl⟩
      obtain ⟨last, named⟩ := routed.covers id spk known
      show state.answer decoders (.shSubscribe id status) ≠ none
      rw [TxState.answer, watched, Option.bind_some, named]
      simp
  | shNotification sh status =>
      rintro ⟨id, spk, known, rfl⟩
      obtain ⟨last, named⟩ := routed.covers id spk known
      show state.answer decoders (.shNotification _ status) ≠ none
      rw [TxState.answer, named]
      simp
  | txGet id rawTx =>
      show state.answer decoders (.txGet id rawTx) ≠ none
      rw [TxState.answer]
      cases decoders.transaction rawTx <;> simp
  | error reason =>
      show state.answer decoders (.error reason) ≠ none
      simp only [TxState.answer]
      split
      · simp
      · split <;> simp
  | headerNotif | batchHeaderNotif | ping | headers | txGetVerbose | header
  | shGetHistory | txGetMerkle =>
      exact True.intro

theorem Routed.forall_handledAll
    {property : Entry Tx Header FromHexError HexError → Prop}
    (holds :
      ∀ {state : TxState} {log : List (Entry Tx Header FromHexError HexError)}
        {response : Response},
        Routed scriptHash client state log → response.Told client.asked →
          property (handled decoders client state response))
    (routed : Routed scriptHash client state log)
    (responses : List Response)
    (told : ∀ response ∈ responses, response.Told client.asked) :
    ∀ entry ∈ handledAll decoders client state responses, property entry := by
  induction responses generalizing state log with
  | nil =>
      intro _ impossible
      cases impossible
  | cons response rest inductionHypothesis =>
      intro entry member
      rcases List.mem_cons.mp member with rfl | later
      · exact holds routed (told response List.mem_cons_self)
      · have first :
            Routed scriptHash client (state.take response)
              (log ++ [handled decoders client state response]) :=
          routed.handle (told response List.mem_cons_self)
        exact inductionHypothesis first
          (fun other listed => told other (List.mem_cons_of_mem _ listed))
          entry later

end Read

abbrev CoinOutput (Tx Header FromHexError HexError : Type) :=
  Output (Entry Tx Header FromHexError HexError)
    (CoinResponse Tx Header FromHexError HexError)

abbrev CoinSession (Tx Header FromHexError HexError : Type) :=
  Session TxState CoinRequest
    (CoinResponse Tx Header FromHexError HexError)
    (Entry Tx Header FromHexError HexError)

def CoinSession.run
    (scriptHash : ScriptBuf → ScriptHash)
    (decoders : Decoders Tx Header FromHexError HexError)
    (events : List (ListenerEvent CoinRequest)) :
    CoinSession Tx Header FromHexError HexError :=
  Session.run (listenTxs scriptHash decoders) (handledAll decoders)
    TxState.empty events

def CoinResponse.Own
    (message : CoinResponse Tx Header FromHexError HexError) : Prop :=
  message = .stopped ∨ message = .error .send ∨ message = .error .transport

/-- The messages of one event tell what the responses of its read were folded
into; an event that reads nothing only has the listener's own messages. -/
structure CoinOutput.Faithful
    (scriptHash : ScriptBuf → ScriptHash)
    (decoders : Decoders Tx Header FromHexError HexError)
    (output : CoinOutput Tx Header FromHexError HexError) : Prop where
  own : output.responses = [] → ∀ message ∈ output.messages, message.Own
  all : output.entries.map Entry.response = output.responses
  asked :
    ∀ entry ∈ output.entries,
      entry.asked = entry.response.id.bind output.asked
  known :
    ∀ entry ∈ output.entries, ∀ id, entry.response.id = some id →
      entry.asked ≠ none ∨ ∃ reason, entry.response = .error reason
  reports :
    ∀ entry ∈ output.entries, ∀ answer, entry.answer = some answer →
      answer.Reports decoders entry.response
  heard :
    ∀ entry ∈ output.entries, entry.Heard scriptHash output.asked
  told :
    output.responses ≠ [] → ∀ message ∈ output.messages, ∀ answer,
      message.Tells answer →
        ∃ entry ∈ output.entries, entry.answer = some answer
  kept :
    ∀ before entry after answer,
      output.entries = before ++ entry :: after →
      entry.answer = some answer →
        (∃ message ∈ output.messages, message.Tells answer) ∨
          ∃ later ∈ after, ∃ other, later.answer = some other ∧
            other.Replaces answer

/-- The answers of a session name the requests they answer. -/
structure CoinSession.Correct
    (scriptHash : ScriptBuf → ScriptHash)
    (decoders : Decoders Tx Header FromHexError HexError)
    (session : CoinSession Tx Header FromHexError HexError) : Prop where
  emitted :
    session.listener.emitted = session.outputs.flatMap Output.messages
  faithful :
    ∀ output ∈ session.outputs,
      CoinOutput.Faithful scriptHash decoders output
  carries :
    ∀ entry ∈ session.log,
      entry.Carries scriptHash session.listener.client.asked
  once : (answeredIds session.log).Nodup
  settled :
    ∀ entry ∈ session.log, ∀ id method, entry.response.id = some id →
      entry.asked = some method → entry.Settles method →
        (answeredIds session.log).count id = 1

section Correct

variable
    {scriptHash : ScriptBuf → ScriptHash}
    {decoders : Decoders Tx Header FromHexError HexError}
    {client : Client}
    {state : TxState}
    {log : List (Entry Tx Header FromHexError HexError)}

theorem CoinOutput.faithful_own
    (asked : Nat → Option Method)
    {messages : List (CoinResponse Tx Header FromHexError HexError)}
    (own : ∀ message ∈ messages, message.Own) :
    CoinOutput.Faithful scriptHash decoders ⟨asked, [], [], messages⟩ where
  own _ := own
  all := rfl
  asked := by simp
  known := by simp
  reports := by simp
  heard := by simp
  told nonempty := absurd rfl nonempty
  kept := by simp

theorem Routed.faithful_read
    (routed : Routed scriptHash client state log)
    (responses : List Response)
    (told : ∀ response ∈ responses, response.Told client.asked) :
    CoinOutput.Faithful scriptHash decoders
      ⟨client.asked, responses,
        handledAll decoders client state responses,
        (handleTxResponses decoders state responses).2⟩ := by
  have tidy :
      (TxBatch.ofAnswers
        ((handledAll decoders client state responses).map
          Entry.answer)).Tidy :=
    TxBatch.tidy_foldl TxBatch.tidy_empty _
  rw [handleTxResponses_eq decoders client]
  refine
    { own := ?_
      all := map_response_handledAll decoders client state responses
      asked := ?_
      known := ?_
      reports := ?_
      heard :=
        routed.forall_handledAll (fun routed told => routed.heard told)
          responses told
      told := ?_
      kept := ?_ }
  · rintro rfl message impossible
    exact absurd impossible (by simp [handledAll, TxBatch.ofAnswers,
      TxBatch.empty, drainBatch])
  · exact routed.forall_handledAll (fun _ _ => rfl) responses told
  · refine routed.forall_handledAll (fun {_ _ response} _ told => ?_) responses
      told
    intro id numbered
    have asked := told.asked
    have same : response.id = some id := numbered
    cases response with
    | error reason =>
        exact Or.inr ⟨reason, rfl⟩
    | shNotification | batchHeaderNotif | headerNotif =>
        cases same
    | shSubscribe | shGetHistory | txGet | txGetVerbose | header =>
        obtain ⟨_, known⟩ := asked
        exact Or.inl (by simp [handled, Response.id, known])
    | txGetMerkle | headers =>
        obtain ⟨_, _, known⟩ := asked
        exact Or.inl (by simp [handled, Response.id, known])
    | ping =>
        exact Or.inl (by simp [handled, Response.id, asked])
  · exact routed.forall_handledAll
      (fun _ _ answer given => TxState.reports_of_answer given) responses told
  · intro _ message sent answer tells
    have contains :=
      (TxBatch.told_drainBatch_iff tidy answer).mp ⟨message, sent, tells⟩
    rcases TxBatch.contains_of_foldl _ contains with impossible | listed
    · exact absurd impossible (by
        cases answer <;> simp [TxBatch.Contains, TxBatch.empty])
    · exact List.mem_map.mp listed
  · intro before entry after answer shape given
    have split :
        (handledAll decoders client state responses).map Entry.answer =
          before.map Entry.answer ++ some answer :: after.map Entry.answer := by
      rw [show handledAll decoders client state responses =
          before ++ entry :: after from shape, List.map_append, List.map_cons,
        given]
    rcases TxBatch.contains_ofAnswers (before.map Entry.answer)
        (after.map Entry.answer) answer with contains | ⟨other, later, replaces⟩
    · rw [← split] at contains
      exact Or.inl ((TxBatch.told_drainBatch_iff tidy answer).mpr contains)
    · obtain ⟨one, listed, same⟩ := List.mem_map.mp later
      exact Or.inr ⟨one, listed, other, same, replaces⟩

theorem dispatchTx_of_ne_stop
    (scriptHash : ScriptBuf → ScriptHash)
    (sent : Bool)
    (client : Client)
    (state : TxState)
    {rq : CoinRequest}
    (goesOn : rq ≠ .stop) :
    (dispatchTx scriptHash sent client state rq :
        Client × TxState ×
          List (CoinResponse Tx Header FromHexError HexError) × Dispatch) =
      ((numberRequests scriptHash client state rq).client,
        (numberRequests scriptHash client state rq).state,
        sendBatch sent (numberRequests scriptHash client state rq).batch) := by
  cases rq <;> first | rfl | exact absurd rfl goesOn

theorem own_sendBatch
    (sent : Bool)
    (batch : List Request) :
    ∀ message ∈
        (sendBatch sent batch :
          List (CoinResponse Tx Header FromHexError HexError) × Dispatch).1,
      message.Own := by
  intro message member
  rw [sendBatch] at member
  split at member
  · cases member
  · cases sent with
    | true =>
        cases member
    | false =>
        exact Or.inr (Or.inl (List.mem_singleton.mp member))

/-- Dispatching keeps the tables and the history in agreement, and only the
listener's own messages come of it. -/
theorem Routed.dispatch
    (routed : Routed scriptHash client state log)
    (sent : Bool)
    (rq : CoinRequest) :
    Routed scriptHash
        ((listenTxs scriptHash decoders).dispatch sent client state rq).1
        ((listenTxs scriptHash decoders).dispatch sent client state rq).2.1
        log ∧
      ∀ message ∈
          ((listenTxs scriptHash decoders).dispatch sent client
            state rq).2.2.1,
        message.Own := by
  show Routed scriptHash (dispatchTx scriptHash sent client state rq).1
      (dispatchTx scriptHash sent client state rq).2.1 log ∧
    ∀ message ∈ (dispatchTx scriptHash sent client state rq).2.2.1, _
  by_cases stops : rq = .stop
  · subst stops
    exact ⟨routed, fun message member =>
      Or.inl (List.mem_singleton.mp member)⟩
  · rw [dispatchTx_of_ne_stop scriptHash sent client state stops]
    exact ⟨routed.numberRequests rq, own_sendBatch sent _⟩

theorem listenTxs_keeps
    (scriptHash : ScriptBuf → ScriptHash)
    (decoders : Decoders Tx Header FromHexError HexError) :
    (listenTxs scriptHash decoders).Keeps (handledAll decoders)
      (Routed scriptHash) CoinResponse.Own
      (CoinOutput.Faithful scriptHash decoders) where
  nothing _ _ := rfl
  silent asked _ own := CoinOutput.faithful_own asked own
  transport := Or.inr (Or.inr rfl)
  ping _ _ _ routed :=
    routed.register_untracked (by simp) (by simp) (by simp) (by simp)
  dispatch sent _ _ _ rq routed := routed.dispatch sent rq
  read client state log responses routed told := by
    refine ⟨?_, routed.faithful_read responses told⟩
    show Routed scriptHash client
      (handleTxResponses decoders state responses).1 _
    rw [handleTxResponses_eq decoders client]
    exact routed.handleAll responses told

theorem CoinSession.correct_run
    (scriptHash : ScriptBuf → ScriptHash)
    (decoders : Decoders Tx Header FromHexError HexError)
    (events : List (ListenerEvent CoinRequest)) :
    (CoinSession.run scriptHash decoders events).Correct scriptHash
      decoders := by
  have holds :=
    (listenTxs_keeps scriptHash decoders).holds_run Routed.fresh events
  exact
    { emitted := holds.emitted
      faithful := holds.faithful
      carries := holds.agrees.carries
      once := holds.agrees.once
      settled := fun entry member id method numbered asked settles =>
        List.count_eq_one_of_mem holds.agrees.once
          (holds.agrees.settled entry member id method numbered asked
            settles) }

end Correct

end Bwk.Electrum
