import Bwk.ClientRouting

namespace Bwk.Electrum

/-!
# Coin requests under fresh numbers

Every request is registered under a number that was never asked, together with
what its answer will need.  The loop only dispatches and reads, so that in
every run the tables agree with what was asked and answered.
-/

variable {Tx Header FromHexError HexError : Type}

theorem Client.asked_register (client : Client) (method : Method) :
    (client.register method).1.asked =
      askedAlso client.asked (client.lastId + 1) method := by
  funext query
  simp only [Client.asked, Client.register, BTreeMap.getElem?_insert_eq,
    askedAlso]
  split <;> rfl

theorem Entry.Carries.askedAlso
    {scriptHash : ScriptBuf → ScriptHash}
    {asked : Nat → Option Method}
    {entry : Entry Tx Header FromHexError HexError}
    (carries : entry.Carries scriptHash asked)
    {id : Nat}
    (fresh : asked id = none)
    (method : Method) :
    entry.Carries scriptHash (askedAlso asked id method) := by
  have kept :
      ∀ query found, asked query = some found →
        Bwk.askedAlso asked id method query = some found := by
    intro query found known
    rw [Bwk.askedAlso, if_neg]
    · exact known
    · rintro rfl
      rw [fresh] at known
      cases known
  refine ⟨?_, carries.request, ?_⟩
  · intro query found numbered known
    exact kept query found (carries.recorded query found numbered known)
  · intro spk status given
    obtain ⟨⟨query, known⟩, names⟩ := carries.script spk status given
    exact ⟨⟨query, kept query _ known⟩, names⟩

namespace Routed

variable
    {scriptHash : ScriptBuf → ScriptHash}
    {client : Client}
    {state after : TxState}
    {log : List (Entry Tx Header FromHexError HexError)}

theorem next_fresh
    (routed : Routed scriptHash client state log) :
    client.asked (client.lastId + 1) = none ∧
      client.lastId + 1 ∉ answeredIds log := by
  have fresh := routed.numbered _ (Nat.lt_succ_self client.lastId)
  exact ⟨fresh, fun member => routed.known _ member fresh⟩

section Number

variable
    (routed : Routed scriptHash client state log)
    {method : Method}
    (history :
      Tracks (fun spk ask => ask = Method.scriptHashGetHistory spk)
        after.reqIdSpk (askedAlso client.asked (client.lastId + 1) method)
        (answeredIds log))
    (merkle :
      Tracks (fun key ask => ask = Method.transactionGetMerkle key.1 key.2)
        after.reqIdTxMerkle
        (askedAlso client.asked (client.lastId + 1) method)
        (answeredIds log))
    (header :
      Tracks (fun height ask => ask = Method.blockHeader height)
        after.reqIdHeader (askedAlso client.asked (client.lastId + 1) method)
        (answeredIds log))

include routed history merkle header

theorem number
    (watched :
      ∀ id sh, after.watchedSpksSh[id]? = some sh ↔
        ∃ spk,
          askedAlso client.asked (client.lastId + 1) method id =
              some (.scriptHashSubscribe spk) ∧
            scriptHash spk = sh)
    (named :
      ∀ sh spk, after.shSpk[sh]? = some spk →
        scriptHash spk = sh ∧
          ∃ id, askedAlso client.asked (client.lastId + 1) method id =
            some (.scriptHashSubscribe spk))
    (covers :
      ∀ id spk,
        askedAlso client.asked (client.lastId + 1) method id =
            some (.scriptHashSubscribe spk) →
          ∃ other, after.shSpk[scriptHash spk]? = some other) :
    Routed scriptHash (client.register method).1 after log := by
  have fresh := routed.next_fresh.1
  have shape := client.asked_register method
  refine
    { history := ?_
      merkle := ?_
      header := ?_
      watched := ?_
      named := ?_
      covers := ?_
      numbered := ?_
      known := ?_
      carries := ?_
      once := routed.once
      settled := routed.settled }
  · rwa [shape]
  · rwa [shape]
  · rwa [shape]
  · rwa [shape]
  · rwa [shape]
  · rwa [shape]
  · intro id above
    have beyond : client.lastId + 1 < id := above
    rw [shape, askedAlso, if_neg (by omega)]
    exact routed.numbered id (by omega)
  · intro id member
    rw [shape, askedAlso]
    split
    · simp
    · exact routed.known id member
  · intro entry member
    rw [shape]
    exact (routed.carries entry member).askedAlso fresh method

theorem number_plain
    (plain : ∀ spk, method ≠ .scriptHashSubscribe spk)
    (subscriptions : after.watchedSpksSh = state.watchedSpksSh)
    (scripts : after.shSpk = state.shSpk) :
    Routed scriptHash (client.register method).1 after log := by
  have fresh := routed.next_fresh.1
  have same :
      ∀ id spk,
        askedAlso client.asked (client.lastId + 1) method id =
            some (.scriptHashSubscribe spk) ↔
          client.asked id = some (.scriptHashSubscribe spk) := by
    intro id spk
    rw [askedAlso]
    by_cases here : client.lastId + 1 = id
    · subst here
      rw [if_pos rfl, fresh]
      simpa using plain spk
    · rw [if_neg here]
  refine routed.number history merkle header ?_ ?_ ?_
  · intro id sh
    simp only [subscriptions, same]
    exact routed.watched id sh
  · intro sh spk found
    rw [scripts] at found
    simp only [same]
    exact routed.named sh spk found
  · intro id spk known
    rw [scripts]
    exact routed.covers id spk ((same id spk).mp known)

end Number

theorem register_untracked
    (routed : Routed scriptHash client state log)
    {method : Method}
    (plain : ∀ spk, method ≠ .scriptHashSubscribe spk)
    (noHistory : ∀ spk, method ≠ .scriptHashGetHistory spk)
    (noMerkle : ∀ txid height, method ≠ .transactionGetMerkle txid height)
    (noHeader : ∀ height, method ≠ .blockHeader height) :
    Routed scriptHash (client.register method).1 state log :=
  have fresh := routed.next_fresh.1
  routed.number_plain (routed.history.ask_other fresh noHistory)
    (routed.merkle.ask_other fresh (fun key => noMerkle key.1 key.2))
    (routed.header.ask_other fresh noHeader) plain rfl rfl

variable {progress : Dispatching}

theorem subscribeOne
    (routed : Routed scriptHash progress.client progress.state log)
    (spk : ScriptBuf) :
    Routed scriptHash (subscribeOne scriptHash progress spk).client
      (subscribeOne scriptHash progress spk).state log := by
  have fresh := routed.next_fresh.1
  refine routed.number
    (routed.history.ask_other fresh (by simp))
    (routed.merkle.ask_other fresh (by simp))
    (routed.header.ask_other fresh (by simp)) ?_ ?_ ?_
  · intro id sh
    show (progress.state.watchedSpksSh.insert (progress.client.lastId + 1)
      (scriptHash spk))[id]? = some sh ↔ _
    rw [BTreeMap.getElem?_insert_eq, askedAlso]
    by_cases here : progress.client.lastId + 1 = id
    · rw [if_pos here, if_pos here]
      simp
    · rw [if_neg here, if_neg here]
      exact routed.watched id sh
  · intro sh other found
    have held :
        (progress.state.shSpk.insert (scriptHash spk) spk)[sh]? =
          some other :=
      found
    rw [BTreeMap.getElem?_insert_eq] at held
    split at held
    · next same =>
        cases held
        refine ⟨same, progress.client.lastId + 1, ?_⟩
        rw [askedAlso, if_pos rfl]
    · obtain ⟨hashes, id, known⟩ := routed.named sh other held
      refine ⟨hashes, id, ?_⟩
      rw [askedAlso, if_neg]
      · exact known
      · rintro rfl
        rw [fresh] at known
        cases known
  · intro id other known
    show ∃ last,
      (progress.state.shSpk.insert (scriptHash spk) spk)[scriptHash other]? =
        some last
    rw [BTreeMap.getElem?_insert_eq]
    by_cases same : scriptHash spk = scriptHash other
    · rw [if_pos same]
      exact ⟨spk, rfl⟩
    · rw [if_neg same]
      rw [askedAlso] at known
      split at known
      · cases known
        exact absurd rfl same
      · exact routed.covers id other known

theorem historyOne
    (routed : Routed scriptHash progress.client progress.state log)
    (spk : ScriptBuf) :
    Routed scriptHash (historyOne progress spk).client
      (historyOne progress spk).state log := by
  have fresh := routed.next_fresh
  exact routed.number_plain
    (routed.history.ask fresh.2 rfl
      (fun _ same => (Method.scriptHashGetHistory.inj same).symm))
    (routed.merkle.ask_other fresh.1 (by simp))
    (routed.header.ask_other fresh.1 (by simp)) (by simp) rfl rfl

theorem merkleOne
    (routed : Routed scriptHash progress.client progress.state log)
    (txid : Txid)
    (height : Nat) :
    Routed scriptHash (merkleOne progress txid height).client
      (merkleOne progress txid height).state log := by
  have fresh := routed.next_fresh
  refine routed.number_plain
    (routed.history.ask_other fresh.1 (by simp))
    (routed.merkle.ask fresh.2 rfl ?_)
    (routed.header.ask_other fresh.1 (by simp)) (by simp) rfl rfl
  rintro ⟨otherTxid, otherHeight⟩ same
  cases same
  rfl

theorem headerOne
    (routed : Routed scriptHash progress.client progress.state log)
    (height : Nat) :
    Routed scriptHash (headerOne progress height).client
      (headerOne progress height).state log := by
  have fresh := routed.next_fresh
  exact routed.number_plain
    (routed.history.ask_other fresh.1 (by simp))
    (routed.merkle.ask_other fresh.1 (by simp))
    (routed.header.ask fresh.2 rfl
      (fun _ same => (Method.blockHeader.inj same).symm)) (by simp) rfl rfl

theorem txOne
    (routed : Routed scriptHash progress.client progress.state log)
    (txid : Txid) :
    Routed scriptHash (txOne progress txid).client (txOne progress txid).state
      log :=
  routed.register_untracked (by simp) (by simp) (by simp) (by simp)

theorem foldl
    {Item : Type}
    {one : Dispatching → Item → Dispatching}
    (step :
      ∀ {progress : Dispatching},
        Routed scriptHash progress.client progress.state log →
        ∀ item,
          Routed scriptHash (one progress item).client
            (one progress item).state log)
    (items : List Item)
    (routed : Routed scriptHash progress.client progress.state log) :
    Routed scriptHash (items.foldl one progress).client
      (items.foldl one progress).state log := by
  induction items generalizing progress with
  | nil =>
      exact routed
  | cons item rest inductionHypothesis =>
      exact inductionHypothesis (step routed item)

theorem numberRequests
    (routed : Routed scriptHash client state log)
    (rq : CoinRequest) :
    Routed scriptHash (numberRequests scriptHash client state rq).client
      (numberRequests scriptHash client state rq).state log := by
  have begun :
      Routed scriptHash
        (⟨client, state, []⟩ : Dispatching).client
        (⟨client, state, []⟩ : Dispatching).state log :=
    routed
  cases rq with
  | subscribe spks =>
      exact foldl (fun routed spk => routed.subscribeOne spk) spks begun
  | history spks =>
      exact foldl (fun routed spk => routed.historyOne spk) spks begun
  | txs txids =>
      exact foldl (fun routed txid => routed.txOne txid) txids begun
  | getTxMerkle txid height =>
      exact begun.merkleOne txid height
  | headers heights =>
      exact foldl (fun routed height => routed.headerOne height) heights begun
  | stop =>
      exact routed

end Routed

end Bwk.Electrum
