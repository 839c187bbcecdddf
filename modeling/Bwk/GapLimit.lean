import Bwk.GapRuns

namespace Bwk

/-!
# The gap limit

A fresh wallet that is told of its used scripts in any order finds all of them,
as long as no two that follow each other are further apart than the look-ahead,
and every scanner opened later on the rows it left continues at the same tips.
-/

variable {Backend StatusRows TipRows : Type}
variable [PersistenceBackend Backend Txid TxEntry]
variable [PersistenceBackend StatusRows ScriptBuf StatusEntry]
variable [PersistenceBackend TipRows String Nat]

namespace Scanner

variable {rows : List (ScriptBuf × StatusEntry)} {bound : KeyChain → Nat}
variable {statuses : RamStore StatusRows ScriptBuf StatusEntry}
variable {keychain : KeyChain}

theorem foldl_max_index_le
    {start bound : Nat}
    (low : start ≤ bound)
    (all : ∀ row ∈ rows, row.2.index ≤ bound) :
    rows.foldl (fun highest row => max highest row.2.index) start ≤ bound := by
  induction rows generalizing start with
  | nil =>
      exact low
  | cons row later inductionHypothesis =>
      exact inductionHypothesis
        (Nat.max_le.mpr ⟨low, all row List.mem_cons_self⟩)
        (fun other member => all other (List.mem_cons_of_mem _ member))

theorem le_foldl_max_start
    (rows : List (ScriptBuf × StatusEntry))
    (start : Nat) :
    start ≤
      rows.foldl (fun highest row => max highest row.2.index) start := by
  induction rows generalizing start with
  | nil =>
      exact le_rfl
  | cons row later inductionHypothesis =>
      exact Nat.le_trans (Nat.le_max_left _ _) (inductionHypothesis _)

theorem le_foldl_max_index
    {start : Nat}
    {row : ScriptBuf × StatusEntry}
    (listed : row ∈ rows) :
    row.2.index ≤
      rows.foldl (fun highest row => max highest row.2.index) start := by
  induction rows generalizing start with
  | nil =>
      cases listed
  | cons first later inductionHypothesis =>
      rcases List.mem_cons.mp listed with rfl | inside
      · exact Nat.le_trans (Nat.le_max_right _ _) (le_foldl_max_start _ _)
      · exact inductionHypothesis inside

theorem maxTip_le
    {derivator : SpkDerivator}
    (distinct : derivator.Distinct)
    (known : Known derivator bound statuses)
    {limit : Nat}
    (below : bound keychain ≤ limit + 1) :
    maxTipFromStatuses statuses keychain ≤ limit := by
  refine foldl_max_index_le (Nat.zero_le _) (fun row member => ?_)
  obtain ⟨listed, chain⟩ := List.mem_filter.mp member
  rw [decide_eq_true_eq] at chain
  have stored :=
    Std.ExtTreeMap.mem_toList_iff_getElem?_eq_some.mp listed
  have registered :
      derivator.scriptAt row.2.keychain row.2.index ∈ statuses.cache := by
    rw [← known.placed row.1 row.2 stored]
    exact BTreeMap.mem_iff_getElem?.mpr ⟨row.2, stored⟩
  have within := (known.scriptAt_mem distinct).mp registered
  rw [chain] at within
  omega

theorem le_maxTip
    {derivator : SpkDerivator}
    (distinct : derivator.Distinct)
    (known : Known derivator bound statuses)
    {index : Nat}
    (below : index < bound keychain) :
    index ≤ maxTipFromStatuses statuses keychain := by
  obtain ⟨entry, stored⟩ :=
    BTreeMap.mem_iff_getElem?.mp ((known.scriptAt_mem distinct).mpr below)
  obtain ⟨chain, place⟩ :=
    distinct _ _ _ _ (known.placed _ entry stored)
  have listed :
      (derivator.scriptAt keychain index, entry) ∈
        statuses.cache.toList.filter
          (fun row => row.2.keychain = keychain) := by
    refine List.mem_filter.mpr
      ⟨Std.ExtTreeMap.mem_toList_iff_getElem?_eq_some.mpr stored, ?_⟩
    rw [decide_eq_true_eq]
    exact chain.symm
  have highest : entry.index ≤ maxTipFromStatuses statuses keychain :=
    le_foldl_max_index listed
  rw [← place] at highest
  exact highest

end Scanner

section Runs

variable [LawfulBackend StatusRows] [ReliableBackend StatusRows]
variable [LawfulBackend TipRows] [ReliableBackend TipRows]
variable {crate : TxCrate} {derivator : SpkDerivator} {lookAhead : Nat}
variable {used : KeyChain → Finset Nat}

variable {scanner : Scanner Backend StatusRows TipRows}

omit [LawfulBackend StatusRows] [ReliableBackend StatusRows]
  [LawfulBackend TipRows] [ReliableBackend TipRows] in
/-- A scanner with nothing registered and nothing unconfirmed only tells its
tips when it connects. -/
theorem Scanner.start_fresh
    (empty : scanner.listener.statuses.cache = ∅)
    (confirmed : scanner.listener.coins.spksWithUnconfirmedTxs = []) :
    scanner.start =
      { listener :=
          { scanner.listener with
            connected := true
            coins :=
              { scanner.listener.coins with
                addressStore := scanner.addresses.populateMaybe } }
        link :=
          { scanner.link with listening := true }.updateWatchTip
            scanner.addresses.populateMaybe } := by
  have keys : scanner.listener.statuses.cache.keys = [] := by
    rw [empty]
    simp
  have confirmed_ :
      CoinStore.spksWithUnconfirmedTxs
          { scanner.listener.coins with
            addressStore := scanner.addresses.populateMaybe } = [] :=
    confirmed
  unfold Scanner.start Listener.start Listener.withCoins
  dsimp only
  rw [keys, if_pos rfl]
  dsimp only
  unfold Listener.refreshUnconfirmedHistory
  dsimp only
  rw [confirmed_, if_pos rfl, if_pos rfl]

omit [LawfulBackend StatusRows] [ReliableBackend StatusRows] in
theorem Session.discovering_connect
    (derives : scanner.addresses.derivator = derivator)
    (ahead : scanner.addresses.lookAhead = lookAhead)
    (quiet : scanner.link.tips = [])
    (persisted : Persisted scanner.addresses scanner.link.account)
    (empty : scanner.listener.statuses.cache = ∅)
    (flushed : Flushed scanner.listener.statuses)
    (silent : scanner.listener.sent = [])
    (confirmed : scanner.listener.coins.spksWithUnconfirmedTxs = []) :
    Session.Discovering derivator lookAhead used (fun _ => 0)
      (Session.connect scanner) := by
  have nowhere (spk : ScriptBuf) : spk ∉ scanner.listener.statuses.cache := by
    rw [empty]
    simp
  obtain ⟨grows, populated⟩ := scanner.addresses.populateMaybe_spec
  unfold Session.connect
  rw [Scanner.start_fresh empty confirmed]
  refine ⟨⟨grows.derivator.trans derives, grows.lookAhead.trans ahead,
    populated, rfl, fun _ => Nat.zero_le _, fun keychain => ?_,
    fun tip member keychain => ?_,
    persisted_persistTip _ persisted.flushed.coherent⟩,
    ⟨⟨fun spk => ?_, fun spk entry stored => ?_⟩, flushed.coherent, ?_,
      fun spk => ?_, fun spk member => ?_, fun spk entry stored => ?_,
      nofun⟩, flushed, rfl, nofun⟩
  · refine Or.inr ⟨⟨scanner.addresses.populateMaybe.recvWatchTip,
      scanner.addresses.populateMaybe.changeWatchTip⟩,
      List.mem_append_right _ List.mem_cons_self, ?_⟩
    cases keychain <;> exact le_rfl
  · have listed :
        tip ∈ scanner.link.tips ++
          [⟨scanner.addresses.populateMaybe.recvWatchTip,
            scanner.addresses.populateMaybe.changeWatchTip⟩] := member
    rw [quiet, List.nil_append, List.mem_singleton] at listed
    rw [listed]
    cases keychain <;> exact le_rfl
  · refine iff_of_false (nowhere spk) ?_
    rintro ⟨_, _, impossible, _⟩
    exact absurd impossible (Nat.not_lt_zero _)
  · exact absurd (BTreeMap.mem_iff_getElem?.mpr ⟨entry, stored⟩) (nowhere spk)
  all_goals
    have requests :
        Session.sent
            ⟨⟨{ scanner.listener with
                connected := true
                coins :=
                  { scanner.listener.coins with
                    addressStore := scanner.addresses.populateMaybe } },
              { scanner.link with listening := true }.updateWatchTip
                scanner.addresses.populateMaybe⟩, [], []⟩ = [] := silent
  · rw [requests]
    exact List.nodup_nil
  · rw [requests]
    exact iff_of_false nofun (nowhere spk)
  · rw [requests] at member
    cases member
  · exact absurd (BTreeMap.mem_iff_getElem?.mpr ⟨entry, stored⟩) (nowhere spk)

omit [LawfulBackend StatusRows] [ReliableBackend StatusRows] in
theorem Session.discovering_fresh
    {txs : TxStore Backend}
    (noTxs : txs.store.cache = ∅)
    (labels : BTreeMap OutPoint String)
    (headerScanner : Bool)
    {statusRows : StatusRows}
    (noStatuses : PersistenceBackend.rows statusRows = ∅)
    (tipRows : TipRows) :
    Session.Discovering derivator lookAhead used (fun _ => 0)
      (Session.connect
        (Scanner.fromStores crate derivator lookAhead txs labels headerScanner
          (RamStore.open_ statusRows) (RamStore.open_ tipRows))) := by
  obtain ⟨derives, ahead, _, quiet, persisted⟩ :=
    fromStores_spec crate derivator lookAhead txs labels headerScanner
      (RamStore.open_ statusRows : RamStore StatusRows ScriptBuf StatusEntry)
      (RamStore.coherent_open tipRows)
  exact Session.discovering_connect derives ahead quiet persisted noStatuses
    (flushed_open statusRows) rfl (spksWithUnconfirmedTxs_fresh crate noTxs)

variable {session : Session Backend StatusRows TipRows}

variable {bound : KeyChain → Nat}

theorem Session.Discovering.take
    (crate : TxCrate)
    (distinct : derivator.Distinct)
    (discovering : session.Discovering derivator lookAhead used bound)
    {event : ScanEvent}
    (allowed : session.Allowed derivator used event) :
    ∃ bound',
      session.Moves derivator lookAhead used bound
        (session.take crate derivator event) bound' := by
  cases event with
  | addressTip place =>
      exact ⟨_, discovering.addressTip crate distinct
        (List.getElem?_eq_getElem allowed)⟩
  | status reported =>
      exact ⟨bound, discovering.status crate allowed⟩
  | history hist =>
      exact ⟨bound, discovering.history crate distinct allowed⟩
  | txs txs =>
      exact ⟨bound, discovering.txs crate txs⟩

theorem Session.Discovering.run
    (distinct : derivator.Distinct)
    {first last : Session Backend StatusRows TipRows}
    (discovering : first.Discovering derivator lookAhead used bound)
    (run : Session.Run crate derivator used first last) :
    ∃ bound', last.Discovering derivator lookAhead used bound' ∧
      ∀ keychain, bound keychain ≤ bound' keychain := by
  induction run with
  | refl =>
      exact ⟨bound, discovering, fun _ => le_rfl⟩
  | step run allowed inductionHypothesis =>
      obtain ⟨between, sound, raised⟩ := inductionHypothesis
      obtain ⟨bound', moves⟩ := sound.take crate distinct allowed
      exact ⟨bound', moves.discovering, fun keychain =>
        Nat.le_trans (raised keychain) (moves.raised keychain)⟩

omit [LawfulBackend StatusRows] [ReliableBackend StatusRows]
  [LawfulBackend TipRows] [ReliableBackend TipRows] in
/-- Once every tip is taken, the registered scripts reach a look-ahead past the
tip. -/
theorem Session.Discovering.bound_eq
    (discovering : session.Discovering derivator lookAhead used bound)
    (quiet : session.tips = [])
    (keychain : KeyChain) :
    bound keychain =
      session.scanner.addresses.generatedTip keychain + lookAhead + 1 := by
  have window := session.scanner.addresses.watchTip_eq keychain
  rw [discovering.watched.lookAhead_eq] at window
  have within := discovering.watched.within keychain
  rcases discovering.watched.told keychain with whole | ⟨tip, member, _⟩
  · omega
  · have none_ : session.scanner.link.tips = [] := quiet
    rw [none_] at member
    cases member

omit [LawfulBackend StatusRows] [ReliableBackend StatusRows]
  [LawfulBackend TipRows] [ReliableBackend TipRows] in
/-- A registered script that is used has its history asked for once its status
was answered. -/
theorem Session.Discovering.asked
    (distinct : derivator.Distinct)
    (discovering : session.Discovering derivator lookAhead used bound)
    (settled : session.Settled)
    {keychain : KeyChain}
    {index : Nat}
    (member : index ∈ used keychain)
    (below : index < bound keychain) :
    derivator.scriptAt keychain index ∈ requestedSpks session.sent := by
  have registered :=
    (discovering.subscribed.known.scriptAt_mem distinct).mpr below
  have answered :=
    settled.answered _
      ((discovering.subscribed.mem_subscribed _).mpr registered)
  obtain ⟨entry, stored, honest⟩ :=
    discovering.subscribed.answered _ answered
  exact (discovering.subscribed.requested _ entry stored
    (honest.mpr ⟨keychain, index, member, rfl⟩)).2

omit [LawfulBackend StatusRows] [ReliableBackend StatusRows]
  [LawfulBackend TipRows] [ReliableBackend TipRows] in
theorem Session.Discovering.covered
    (distinct : derivator.Distinct)
    (discovering : session.Discovering derivator lookAhead used bound)
    (settled : session.Settled)
    {keychain : KeyChain}
    (gap : WithinGap lookAhead (used keychain)) :
    ∀ index ∈ used keychain, index < bound keychain := by
  have reach := discovering.bound_eq settled.tips keychain
  refine gap.covered (by omega) (fun index member below => ?_)
  have found :=
    discovering.folded keychain index
      (settled.folded _ (discovering.asked distinct settled member below))
  omega

/-- Some persisted tips are lost, or older than they were. -/
def LosesTips (loss : TipRows → TipRows) : Prop :=
  ∀ rows keychain,
    ((PersistenceBackend.rows (loss rows))[tipRow keychain]?).getD 0 ≤
      ((PersistenceBackend.rows rows)[tipRow keychain]?).getD 0

/-- No persisted tip is lost. -/
def KeepsTips (loss : TipRows → TipRows) : Prop :=
  ∀ rows keychain,
    (PersistenceBackend.rows (loss rows))[tipRow keychain]? =
      (PersistenceBackend.rows rows)[tipRow keychain]?

/-- The stores of a scanner that would open with given tips; complete ones show
the tips without the persisted rows. -/
structure Restores
    (lookAhead : Nat)
    (tips : KeyChain → Nat)
    (complete : Prop)
    (scanner : Scanner Backend StatusRows TipRows) : Prop where
  generatedTip :
    ∀ keychain, scanner.addresses.generatedTip keychain = tips keychain
  persisted : Persisted scanner.addresses scanner.link.account
  flushed : Flushed scanner.listener.statuses
  high :
    ∀ keychain,
      Scanner.maxTipFromStatuses scanner.listener.statuses keychain ≤
        tips keychain + lookAhead
  full :
    complete → ∀ keychain,
      tips keychain + lookAhead ≤
        Scanner.maxTipFromStatuses scanner.listener.statuses keychain

omit [LawfulBackend StatusRows] [ReliableBackend StatusRows] in
theorem Restores.reopen
    {tips : KeyChain → Nat}
    {complete : Prop}
    (restores : Restores lookAhead tips complete scanner)
    {loss : TipRows → TipRows}
    (loses : LosesTips loss)
    (enough : complete ∨ KeepsTips loss) :
    Restores lookAhead tips complete
      (scanner.reopen crate derivator lookAhead loss) := by
  obtain ⟨_, _, opened, _, persisted⟩ :=
    fromStores_spec crate derivator lookAhead
      ⟨RamStore.open_ scanner.listener.coins.txStore.store.backend⟩
      scanner.listener.coins.labels scanner.listener.coins.headerScanner
      (RamStore.open_ scanner.listener.statuses.backend :
        RamStore StatusRows ScriptBuf StatusEntry)
      (RamStore.coherent_open (loss scanner.link.account.backend))
  have cache :
      (RamStore.open_ scanner.listener.statuses.backend :
          RamStore StatusRows ScriptBuf StatusEntry).cache =
        scanner.listener.statuses.cache :=
    restores.flushed.rows
  have highest (keychain : KeyChain) :
      Scanner.maxTipFromStatuses
          (RamStore.open_ scanner.listener.statuses.backend :
            RamStore StatusRows ScriptBuf StatusEntry) keychain =
        Scanner.maxTipFromStatuses scanner.listener.statuses keychain := by
    unfold Scanner.maxTipFromStatuses
    rw [cache]
  have row (keychain : KeyChain) :
      (PersistenceBackend.rows
          scanner.link.account.backend)[tipRow keychain]? =
        some (tips keychain) := by
    rw [restores.persisted.flushed.rows, restores.persisted.tip,
      restores.generatedTip]
  refine ⟨fun keychain => ?_, persisted, flushed_open _, fun keychain => ?_,
    fun whole keychain => ?_⟩
  · refine (opened keychain).trans ?_
    unfold Scanner.openedTip
    rw [highest]
    have high := restores.high keychain
    have lower := loses scanner.link.account.backend keychain
    rw [row, Option.getD_some] at lower
    have read :
        tipFromAccountStore
            (RamStore.open_ (loss scanner.link.account.backend) :
              RamStore TipRows String Nat) keychain =
          ((PersistenceBackend.rows
            (loss scanner.link.account.backend))[tipRow keychain]?).getD 0 :=
      rfl
    rw [read]
    rcases enough with whole | keeps
    · have full := restores.full whole keychain
      omega
    · rw [keeps scanner.link.account.backend keychain, row, Option.getD_some]
      omega
  · exact (highest keychain).trans_le (restores.high keychain)
  · exact (restores.full whole keychain).trans_eq (highest keychain).symm

omit [LawfulBackend StatusRows] [ReliableBackend StatusRows] in
theorem Restores.reopens
    {tips : KeyChain → Nat}
    {complete : Prop}
    (restores : Restores lookAhead tips complete scanner)
    {losses : List (TipRows → TipRows)}
    (loses : ∀ loss ∈ losses, LosesTips loss)
    (enough : complete ∨ ∀ loss ∈ losses, KeepsTips loss) :
    Restores lookAhead tips complete
      (losses.foldl (Scanner.reopen crate derivator lookAhead) scanner) := by
  induction losses generalizing scanner with
  | nil =>
      exact restores
  | cons loss later inductionHypothesis =>
      refine inductionHypothesis
        (restores.reopen (loses loss List.mem_cons_self)
          (enough.imp_right (fun keeps => keeps loss List.mem_cons_self)))
        (fun other member => loses other (List.mem_cons_of_mem _ member))
        (enough.imp_right (fun keeps other member =>
          keeps other (List.mem_cons_of_mem _ member)))

omit [LawfulBackend StatusRows] [ReliableBackend StatusRows]
  [LawfulBackend TipRows] [ReliableBackend TipRows] in
/-- A discovering session leaves stores that restore its tips; without a tip in
the channel they do so without the persisted rows. -/
theorem Session.Discovering.restores
    (distinct : derivator.Distinct)
    (discovering : session.Discovering derivator lookAhead used bound) :
    Restores lookAhead session.scanner.addresses.generatedTip
      (session.tips = []) session.scanner where
  generatedTip _ := rfl
  persisted := discovering.watched.persisted
  flushed := discovering.flushed
  high keychain := by
    refine Scanner.maxTip_le distinct discovering.subscribed.known ?_
    have within := discovering.watched.within keychain
    rw [AddressStore.watchTip_eq, discovering.watched.lookAhead_eq] at within
    exact within
  full quiet keychain := by
    have reach := discovering.bound_eq quiet keychain
    exact Scanner.le_maxTip distinct discovering.subscribed.known (by omega)

end Runs

/-- A backend in memory, which takes every write. -/
structure MapBackend (Key Value : Type) [Ord Key] where
  rows : BTreeMap Key Value

namespace MapBackend

variable {Key Value : Type} [Ord Key] [Std.TransOrd Key]

instance : PersistenceBackend (MapBackend Key Value) Key Value where
  rows backend := backend.rows
  flushBatch backend inserts removed :=
    (.ok (), ⟨(backend.rows.eraseAll removed).insertAll inserts⟩)

instance : LawfulBackend (MapBackend Key Value) where
  rows_of_ok := by
    intro backend after inserts removed written
    cases written
    rfl
  rows_of_error := by
    intro backend after inserts removed reason written
    cases written

instance : ReliableBackend (MapBackend Key Value) where
  ok _ _ _ := rfl

end MapBackend

namespace GapSample

/-- Even scripts receive, odd ones are change. -/
def derivator : SpkDerivator :=
  ⟨fun index => 2 * index, fun index => 2 * index + 1⟩

theorem distinct : derivator.Distinct := by
  intro account index other index' same
  cases account <;> cases other
  · have doubled : (2 * index : Nat) = 2 * index' := same
    exact ⟨rfl, by omega⟩
  · have mixed : (2 * index : Nat) = 2 * index' + 1 := same
    omega
  · have mixed : (2 * index + 1 : Nat) = 2 * index' := same
    omega
  · have doubled : (2 * index + 1 : Nat) = 2 * index' + 1 := same
    exact ⟨rfl, by omega⟩

/-- The used receive indices lie a look-ahead of two apart. -/
def used : KeyChain → Finset Nat
  | .receive => {1, 3}
  | .change => ∅

theorem gaps (keychain : KeyChain) : WithinGap 2 (used keychain) := by
  cases keychain <;> constructor <;> simp [used]

/-- A wallet that holds nothing. -/
def txs : TxStore (NoopBackend Txid TxEntry) :=
  ⟨RamStore.empty ⟨⟩⟩

def statusRows : MapBackend ScriptBuf StatusEntry := ⟨∅⟩

def tipRows : MapBackend String Nat := ⟨∅⟩

/-- A new connection of it. -/
def session :
    Session (NoopBackend Txid TxEntry) (MapBackend ScriptBuf StatusEntry)
      (MapBackend String Nat) :=
  Session.connect
    (Scanner.fromStores TxCrate.sample derivator 2 txs ∅ true
      (RamStore.open_ statusRows) (RamStore.open_ tipRows))

theorem tips_session : session.tips = [⟨3, 3⟩] := by
  decide +kernel

end GapSample

end Bwk
