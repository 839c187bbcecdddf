import Bwk.GapDiscovery

namespace Bwk

/-!
# Runs of a discovering scan

Each event keeps the invariant and raises no bound above the window, whatever
comes next; a settled session has discovered every used script within the gap
limit, and a scanner over the stores it leaves opens with the same tips.
-/

/-- Indices that follow each other within a gap lie below a bound that, of every
one of them below it, covers the next gap as well. -/
theorem WithinGap.covered
    {lookAhead bound : Nat}
    {used : Finset Nat}
    (gap : WithinGap lookAhead used)
    (window : lookAhead < bound)
    (grows : ∀ index ∈ used, index < bound → index + lookAhead < bound) :
    ∀ index ∈ used, index < bound := by
  intro index
  induction index using Nat.strong_induction_on with
  | _ index inductionHypothesis =>
      intro member
      by_cases least : ∀ other ∈ used, index ≤ other
      · exact Nat.lt_of_le_of_lt (gap.first index member least) window
      · push Not at least
        obtain ⟨before, listed, below⟩ := least
        let earlier := used.filter (fun other => other < index)
        have some_ : earlier.Nonempty :=
          ⟨before, Finset.mem_filter.mpr ⟨listed, below⟩⟩
        -- The used index right before this one.
        obtain ⟨inside, lower⟩ :=
          Finset.mem_filter.mp (earlier.max'_mem some_)
        have next :
            ∀ other ∈ used, other ≤ earlier.max' some_ ∨ index ≤ other := by
          intro other here
          rcases Nat.lt_or_ge other index with smaller | larger
          · exact Or.inl
              (earlier.le_max' other (Finset.mem_filter.mpr ⟨here, smaller⟩))
          · exact Or.inr larger
        have reach := gap.next _ inside index member lower next
        have covered :=
          grows _ inside (inductionHypothesis _ lower inside)
        omega

namespace Session

variable {Backend StatusRows TipRows : Type}
variable [PersistenceBackend Backend Txid TxEntry]
variable [PersistenceBackend StatusRows ScriptBuf StatusEntry]
variable [PersistenceBackend TipRows String Nat]

/-- The invariant of a scan whose registered scripts end at a bound. -/
structure Discovering
    (derivator : SpkDerivator)
    (lookAhead : Nat)
    (used : KeyChain → Finset Nat)
    (bound : KeyChain → Nat)
    (session : Session Backend StatusRows TipRows) : Prop where
  watched :
    Watched derivator lookAhead bound session.scanner.addresses
      session.scanner.link
  subscribed :
    Subscribed derivator used bound session.statuses
      (subscribedSpks session.sent) (requestedSpks session.sent)
      session.answered
  flushed : Flushed session.statuses
  connected : session.scanner.listener.connected = true
  folded :
    ∀ keychain index,
      derivator.scriptAt keychain index ∈ session.folded →
        index ≤ session.scanner.addresses.generatedTip keychain

/-- What an event leaves of the invariant, with the bound it raises. -/
structure Moves
    (derivator : SpkDerivator)
    (lookAhead : Nat)
    (used : KeyChain → Finset Nat)
    (before : Session Backend StatusRows TipRows)
    (bound : KeyChain → Nat)
    (after : Session Backend StatusRows TipRows)
    (bound' : KeyChain → Nat) : Prop where
  discovering : Discovering derivator lookAhead used bound' after
  raised : ∀ keychain, bound keychain ≤ bound' keychain
  tips :
    ∀ keychain,
      before.scanner.addresses.generatedTip keychain ≤
        after.scanner.addresses.generatedTip keychain

section Events

variable (crate : TxCrate) {derivator : SpkDerivator} {lookAhead : Nat}
variable {used : KeyChain → Finset Nat} {bound : KeyChain → Nat}
variable {session : Session Backend StatusRows TipRows}
variable
    (discovering : Discovering derivator lookAhead used bound session)

include discovering

theorem Discovering.addressTip
    [LawfulBackend StatusRows] [ReliableBackend StatusRows]
    (distinct : derivator.Distinct)
    {place : Nat}
    {tip : AddressTip}
    (here : session.tips[place]? = some tip) :
    Moves derivator lookAhead used session bound
      (session.take crate derivator (.addressTip place))
      (fun keychain => max (bound keychain) (tip.tipOf keychain)) := by
  obtain ⟨collected, grown, registers, handled⟩ :=
    handleAddressTip_spec distinct discovering.subscribed.known
      discovering.connected tip
  have subscribed := discovering.subscribed.registers registers
  have watched := discovering.watched.addressTip here
  have here_ : session.scanner.link.tips[place]? = some tip := here
  have taken :
      (session.take crate derivator (.addressTip place)).scanner =
        { listener :=
            (session.scanner.listener.handleAddressTip derivator tip).2
          link :=
            { session.scanner.link with
              tips := session.scanner.link.tips.eraseIdx place } } := by
    unfold take Scanner.handle
    dsimp only
    rw [here_]
  rw [handled] at taken
  by_cases nothing : collected = []
  · rw [if_pos nothing] at taken
    have same := registers.untouched nothing
    subst nothing
    refine ⟨⟨?_, ?_, ?_, ?_, ?_⟩, fun keychain => Nat.le_max_left _ _,
      fun keychain => ?_⟩
    · rw [taken]
      exact watched
    · unfold Session.sent Session.statuses
      rw [taken]
      rw [List.append_nil] at subscribed
      exact subscribed
    · unfold Session.statuses
      rw [taken, same]
      exact discovering.flushed
    · rw [taken]
      exact discovering.connected
    · rw [taken]
      exact discovering.folded
    · rw [taken]
      exact le_rfl
  · rw [if_neg nothing] at taken
    refine ⟨⟨?_, ?_, ?_, ?_, ?_⟩, fun keychain => Nat.le_max_left _ _,
      fun keychain => ?_⟩
    · rw [taken]
      exact watched
    · unfold Session.sent Session.statuses
      rw [taken]
      dsimp only
      rw [subscribedSpks_append, requestedSpks_append,
        subscribedSpks_subscribe, requestedSpks_subscribe, List.append_nil]
      exact subscribed.sameCache (RamStore.cache_flush grown)
        subscribed.coherent.flush
    · unfold Session.statuses
      rw [taken]
      exact flushed_flush subscribed.coherent
    · rw [taken]
      exact discovering.connected
    · rw [taken]
      exact discovering.folded
    · rw [taken]
      exact le_rfl

/-- Statuses are recorded and the histories of the used scripts asked for. -/
theorem Discovering.status
    [LawfulBackend StatusRows] [ReliableBackend StatusRows]
    {reported : BTreeMap ScriptBuf (Option Status)}
    (allowed : session.Allowed derivator used (.status reported)) :
    Moves derivator lookAhead used session bound
      (session.take crate derivator (.status reported)) bound := by
  obtain ⟨spks, dirty, after, folds, quiet, clean, subscribed⟩ :=
    discovering.subscribed.foldStatuses TipRows crate
      (fun row member => (allowed row member).1)
      (fun row member => (allowed row member).2)
  let stored := if dirty then after.flush.2 else after
  have taken :
      (session.take crate derivator (.status reported)).scanner =
        { listener :=
            { session.scanner.listener with
              statuses := stored
              sent :=
                session.sent ++
                  if spks = [] then [] else [.history spks] }
          link := session.scanner.link } := by
    unfold take Scanner.handle
    dsimp only
    rw [quiet]
    unfold Listener.handleStatusResponse
    have folds_ :
        session.scanner.listener.foldStatuses crate reported.toList =
          (spks, dirty,
            { session.scanner.listener with statuses := after }) := folds
    have connected := discovering.connected
    rw [folds_]
    dsimp only
    by_cases nothing : spks = []
    · rw [if_pos nothing, if_pos nothing]
      cases dirty <;>
        simp [stored, Listener.flushStatuses, Session.sent]
    · rw [if_neg nothing, if_neg nothing]
      unfold Listener.send
      cases dirty <;>
        simp [stored, Listener.flushStatuses, Session.sent, connected]
  have cache : stored.cache = after.cache := by
    cases dirty with
    | true =>
        exact RamStore.cache_flush after
    | false =>
        rfl
  have flushed : Flushed stored := by
    cases dirty with
    | true =>
        exact flushed_flush subscribed.coherent
    | false =>
        have same : stored = session.statuses := clean rfl
        rw [same]
        exact discovering.flushed
  refine ⟨⟨?_, ?_, ?_, ?_, ?_⟩, fun keychain => le_rfl, fun keychain => ?_⟩
  · rw [taken]
    exact discovering.watched
  · unfold Session.sent Session.statuses
    rw [taken]
    dsimp only
    rw [subscribedSpks_append, requestedSpks_append]
    have recorded := subscribed.sameCache cache flushed.coherent
    by_cases nothing : spks = []
    · rw [if_pos nothing, show subscribedSpks [] = [] from rfl,
        show requestedSpks [] = [] from rfl, List.append_nil, List.append_nil]
      rw [nothing, List.append_nil] at recorded
      exact recorded
    · rw [if_neg nothing, subscribedSpks_history, requestedSpks_history,
        List.append_nil]
      exact recorded
  · unfold Session.statuses
    rw [taken]
    exact flushed
  · rw [taken]
    exact discovering.connected
  · rw [taken]
    exact discovering.folded
  · rw [taken]
    exact le_rfl

theorem Discovering.history
    [LawfulBackend TipRows] [ReliableBackend TipRows]
    (distinct : derivator.Distinct)
    {hist : BTreeMap ScriptBuf History}
    (allowed : session.Allowed derivator used (.history hist)) :
    Moves derivator lookAhead used session bound
      (session.take crate derivator (.history hist)) bound := by
  let spks := hist.toList.map Prod.fst
  have window :
      (session.scanner.listener.handleHistoryResponseMsg crate
        hist).2.coins.addressStore.SameWindow
          (session.scanner.addresses.recvCoinsAt spks) := by
    rw [Listener.coins_handleHistoryResponseMsg]
    unfold CoinStore.foldHistory
    dsimp only
    have folded :=
      CoinStore.sameWindow_handleHistoryResponse crate
        session.scanner.listener.coins hist
    split
    · exact (CoinStore.sameWindow_commitHistory crate _ _).trans folded
    · exact folded
  -- At most the missing transactions are asked for.
  have rest :
      (session.scanner.listener.handleHistoryResponseMsg crate
          hist).2.statuses = session.statuses ∧
        (session.scanner.listener.handleHistoryResponseMsg crate
          hist).2.connected = true ∧
        subscribedSpks
            (session.scanner.listener.handleHistoryResponseMsg crate
              hist).2.sent = subscribedSpks session.sent ∧
        requestedSpks
            (session.scanner.listener.handleHistoryResponseMsg crate
              hist).2.sent = requestedSpks session.sent := by
    have connected := discovering.connected
    unfold Listener.handleHistoryResponseMsg
    dsimp only
    split
    · exact ⟨rfl, connected, rfl, rfl⟩
    · have connected_ :
          (session.scanner.listener.withCoins
            (session.scanner.listener.coins.handleHistoryResponse crate
              hist).2).connected = true := connected
      unfold Listener.send
      rw [if_pos connected_]
      refine ⟨rfl, connected, ?_, ?_⟩
      · exact (subscribedSpks_append _ _).trans (by simp; rfl)
      · exact (requestedSpks_append _ _).trans (by simp; rfl)
  obtain ⟨statuses, connected, subscribedSame, requestedSame⟩ := rest
  have watched :=
    (discovering.watched.recvCoinsAt spks).sameWindow window
  have advances := session.scanner.addresses.advances_recvCoinsAt spks
  refine ⟨⟨watched, ?_, ?_, connected, ?_⟩, fun keychain => le_rfl,
    fun keychain => ?_⟩
  · unfold Session.sent Session.statuses take Scanner.handle
    dsimp only
    rw [statuses, subscribedSame, requestedSame]
    exact discovering.subscribed
  · unfold Session.statuses take Scanner.handle
    dsimp only
    rw [statuses]
    exact discovering.flushed
  · intro keychain index member
    change index ≤
      (session.scanner.listener.handleHistoryResponseMsg crate
        hist).2.coins.addressStore.generatedTip keychain
    rw [window.generatedTip]
    rcases List.mem_append.mp member with old | new
    · exact Nat.le_trans (discovering.folded keychain index old)
        (advances.generatedTip keychain)
    · obtain ⟨row, listed, same⟩ := List.mem_map.mp new
      have asked := allowed row listed
      rw [same] at asked
      have below :=
        (discovering.subscribed.known.scriptAt_mem distinct).mp
          (discovering.subscribed.mem_requested _ asked)
      have within := discovering.watched.within keychain
      have derives := discovering.watched.derivator_eq
      refine AddressStore.le_generatedTip_recvCoinsAt (derives.symm ▸ distinct)
        discovering.watched.populated (by omega) ?_
      rw [derives]
      exact new
  · change _ ≤
      (session.scanner.listener.handleHistoryResponseMsg crate
        hist).2.coins.addressStore.generatedTip keychain
    rw [window.generatedTip]
    exact advances.generatedTip keychain

theorem Discovering.txs (txs : List Transaction) :
    Moves derivator lookAhead used session bound
      (session.take crate derivator (.txs txs)) bound := by
  have window :
      (session.scanner.listener.handleTxsResponse crate
        txs).coins.addressStore.SameWindow session.scanner.addresses :=
    CoinStore.sameWindow_generate crate _
  refine ⟨⟨discovering.watched.sameWindow window, discovering.subscribed,
    discovering.flushed, discovering.connected, fun keychain index member =>
      ?_⟩, fun keychain => le_rfl, fun keychain => ?_⟩
  · exact Nat.le_trans (discovering.folded keychain index member)
      (window.advances.generatedTip keychain)
  · exact window.advances.generatedTip keychain

end Events

end Session

section Opening

variable {Backend StatusRows TipRows : Type}
variable [PersistenceBackend Backend Txid TxEntry]
variable [PersistenceBackend StatusRows ScriptBuf StatusEntry]
variable [PersistenceBackend TipRows String Nat]
variable [LawfulBackend TipRows] [ReliableBackend TipRows]

/-- An address store with given tips watches up to them and persists them. -/
theorem withAccountStore_spec
    (derivator : SpkDerivator)
    (tip : KeyChain → Nat)
    (lookAhead : Nat)
    {account : RamStore TipRows String Nat}
    (coherent : account.Coherent) :
    let opened :=
      AddressStore.withAccountStore derivator (tip .receive) (tip .change)
        lookAhead account
    opened.1.derivator = derivator ∧ opened.1.lookAhead = lookAhead ∧
      (∀ keychain, opened.1.generatedTip keychain = tip keychain) ∧
      opened.1.Populated ∧ opened.2.tips = [] ∧
      Persisted opened.1 opened.2.account := by
  obtain ⟨grows, populated⟩ :=
    AddressStore.populateMaybe_spec
      { derivator := derivator
        store := ∅
        recvGeneratedTip := tip .receive
        changeGeneratedTip := tip .change
        lookAhead := lookAhead
        derived := by simp }
  refine ⟨grows.derivator, grows.lookAhead, fun keychain => ?_, populated,
    rfl, persisted_persistTip _ coherent⟩
  refine (grows.generatedTip keychain).trans ?_
  cases keychain <;> rfl

variable (crate : TxCrate)

theorem fromStores_spec
    (derivator : SpkDerivator)
    (lookAhead : Nat)
    (txs : TxStore Backend)
    (labels : BTreeMap OutPoint String)
    (headerScanner : Bool)
    (statuses : RamStore StatusRows ScriptBuf StatusEntry)
    {account : RamStore TipRows String Nat}
    (coherent : account.Coherent) :
    let scanner :=
      Scanner.fromStores crate derivator lookAhead txs labels headerScanner
        statuses account
    scanner.addresses.derivator = derivator ∧
      scanner.addresses.lookAhead = lookAhead ∧
      (∀ keychain,
        scanner.addresses.generatedTip keychain =
          Scanner.openedTip lookAhead statuses account keychain) ∧
      scanner.link.tips = [] ∧
      Persisted scanner.addresses scanner.link.account := by
  intro scanner
  have opened :=
    withAccountStore_spec derivator
      (Scanner.openedTip lookAhead statuses account) lookAhead coherent
  have window :
      scanner.addresses.SameWindow
        (AddressStore.withAccountStore derivator
          (Scanner.openedTip lookAhead statuses account .receive)
          (Scanner.openedTip lookAhead statuses account .change)
          lookAhead account).1 :=
    CoinStore.sameWindow_generate crate _
  obtain ⟨derives, ahead, tips, _, quiet, persisted⟩ := opened
  exact ⟨window.derivator.trans derives, window.lookAhead.trans ahead,
    fun keychain => (window.generatedTip keychain).trans (tips keychain),
    quiet, persisted.sameWindow window⟩

omit [LawfulBackend TipRows] [ReliableBackend TipRows]
  [PersistenceBackend TipRows String Nat]
  [PersistenceBackend StatusRows ScriptBuf StatusEntry] in
theorem spksWithUnconfirmedTxs_fresh
    {coins : CoinStore Backend}
    (noTxs : coins.txStore.store.cache = ∅) :
    (coins.generate crate).spksWithUnconfirmedTxs = [] := by
  have none_ : coins.txStore.iter = [] := by
    unfold TxStore.iter
    rw [noTxs]
    simp
  have empty : (coins.generate crate).store = ∅ := by
    change coins.coinMap crate = ∅
    unfold CoinStore.coinMap CoinStore.spentOutpoints
      CoinStore.receivedCoins
    rw [none_]
    rfl
  unfold CoinStore.spksWithUnconfirmedTxs
  rw [empty]
  simp

end Opening

end Bwk
