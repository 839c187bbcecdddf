import Bwk.GapScan

namespace Bwk

/-!
# Discovering the used scripts

Whatever the order of its events, a scan that began with a fresh wallet keeps
the registered scripts of a keychain those below one bound, and the bound within
the watch window; once everything is settled the two meet, and every used index
within the gap limit of another one lies below.
-/

section Flushed

variable {Backend Key Value : Type} [Ord Key] [Std.TransOrd Key]
variable [Std.LawfulEqOrd Key] [DecidableEq Key]
variable [PersistenceBackend Backend Key Value]

/-- A store whose rows are its cache. -/
structure Flushed (store : RamStore Backend Key Value) : Prop where
  coherent : store.Coherent
  rows : PersistenceBackend.rows store.backend = store.cache

theorem flushed_open (backend : Backend) :
    Flushed (RamStore.open_ backend : RamStore Backend Key Value) :=
  ⟨RamStore.coherent_open backend, rfl⟩

variable [LawfulBackend Backend] [ReliableBackend Backend]

theorem flushed_flush
    {store : RamStore Backend Key Value}
    (coherent : store.Coherent) :
    Flushed store.flush.2 := by
  refine ⟨coherent.flush, ?_⟩
  have ok : store.flush.1 = .ok () := by
    unfold RamStore.flush
    split
    · rfl
    · have arrives :=
        ReliableBackend.ok store.backend store.pending store.removed.toList
      split
      · rfl
      · rename_i written
        rw [written] at arrives
        cases arrives
  rw [RamStore.cache_flush]
  exact coherent.rows_of_flush (Prod.ext ok rfl)

end Flushed

section Window

variable {TipRows : Type} [PersistenceBackend TipRows String Nat]

structure Persisted
    (addresses : AddressStore)
    (account : RamStore TipRows String Nat) : Prop where
  flushed : Flushed account
  tip :
    ∀ keychain,
      account.cache[tipRow keychain]? =
        some (addresses.generatedTip keychain)

theorem Persisted.sameWindow
    {addresses after : AddressStore}
    {account : RamStore TipRows String Nat}
    (persisted : Persisted addresses account)
    (same : after.SameWindow addresses) :
    Persisted after account :=
  ⟨persisted.flushed, fun keychain =>
    (persisted.tip keychain).trans (by rw [same.generatedTip])⟩

/-- What the address store told between two of its states. -/
structure Tells
    (before : AddressStore)
    (link : TipLink TipRows)
    (after : AddressStore)
    (link' : TipLink TipRows) : Prop where
  advances : AddressStore.Advances before after
  listening : link'.listening = link.listening
  kept : ∀ tip ∈ link.tips, tip ∈ link'.tips
  bounded :
    ∀ tip ∈ link'.tips,
      tip ∈ link.tips ∨
        ∀ keychain, tip.tipOf keychain ≤ after.watchTip keychain
  told :
    link.listening = true →
      (∀ keychain, after.watchTip keychain = before.watchTip keychain) ∨
        ∃ tip ∈ link'.tips,
          ∀ keychain, tip.tipOf keychain = after.watchTip keychain
  persisted : Persisted before link.account → Persisted after link'.account

namespace Tells

theorem refl
    (addresses : AddressStore)
    (link : TipLink TipRows) :
    Tells addresses link addresses link where
  advances := .refl addresses
  listening := rfl
  kept _ member := member
  bounded _ member := Or.inl member
  told _ := Or.inl (fun _ => rfl)
  persisted := id

theorem trans
    {first second third : AddressStore}
    {link link' link'' : TipLink TipRows}
    (tells : Tells first link second link')
    (tells' : Tells second link' third link'') :
    Tells first link third link'' where
  advances := tells.advances.trans tells'.advances
  listening := tells'.listening.trans tells.listening
  kept tip member := tells'.kept tip (tells.kept tip member)
  bounded := by
    intro tip member
    rcases tells'.bounded tip member with earlier | within
    · rcases tells.bounded tip earlier with first | within
      · exact Or.inl first
      · exact Or.inr (fun keychain =>
          Nat.le_trans (within keychain) (tells'.advances.watchTip keychain))
    · exact Or.inr within
  told := by
    intro listening
    rcases tells'.told (tells.listening.trans listening) with same | told
    · rcases tells.told listening with same' | ⟨tip, member, value⟩
      · exact Or.inl (fun keychain =>
          (same keychain).trans (same' keychain))
      · exact Or.inr ⟨tip, tells'.kept tip member, fun keychain =>
          (value keychain).trans (same keychain).symm⟩
    · exact Or.inr told
  persisted initial := tells'.persisted (tells.persisted initial)

end Tells

theorem tipRow_injective : Function.Injective tipRow := by
  intro keychain other same
  cases keychain <;> cases other <;> first | rfl | exact absurd same (by decide)

variable [LawfulBackend TipRows] [ReliableBackend TipRows]

theorem persisted_persistTip
    (addresses : AddressStore)
    {account : RamStore TipRows String Nat}
    (coherent : account.Coherent) :
    Persisted addresses
      (persistTip account addresses.recvGeneratedTip
        addresses.changeGeneratedTip).flush.2 := by
  refine ⟨flushed_flush ((coherent.insert _ _).insert _ _),
    fun keychain => ?_⟩
  rw [RamStore.cache_flush]
  unfold persistTip
  rw [RamStore.cache_insert, RamStore.cache_insert,
    BTreeMap.getElem?_insert_eq, BTreeMap.getElem?_insert_eq]
  cases keychain with
  | receive =>
      rw [if_neg (fun same => by cases tipRow_injective same), if_pos rfl]
      rfl
  | change =>
      rw [if_pos rfl]
      rfl

theorem tells_recvCoinAt
    (addresses : AddressStore)
    (link : TipLink TipRows)
    (spk : ScriptBuf) :
    Tells addresses link (addresses.recvCoinAt spk)
      (link.recvCoinAt addresses spk) := by
  unfold TipLink.recvCoinAt
  split
  · refine ⟨addresses.advances_recvCoinAt spk, rfl, fun tip member => ?_,
      fun tip member => ?_, fun listening => ?_, fun persisted =>
        persisted_persistTip _ persisted.flushed.coherent⟩
    · unfold TipLink.updateWatchTip
      dsimp only
      split
      · exact List.mem_append_left _ member
      · exact member
    · unfold TipLink.updateWatchTip at member
      dsimp only at member
      split at member
      · rcases List.mem_append.mp member with old | new
        · exact Or.inl old
        · rw [List.mem_singleton.mp new]
          exact Or.inr (fun keychain => by cases keychain <;> exact le_rfl)
      · exact Or.inl member
    · refine Or.inr ⟨⟨(addresses.recvCoinAt spk).recvWatchTip,
        (addresses.recvCoinAt spk).changeWatchTip⟩, ?_,
        fun keychain => by cases keychain <;> rfl⟩
      unfold TipLink.updateWatchTip
      dsimp only
      rw [if_pos listening]
      simp
  · rename_i nowhere
    have same : addresses.recvCoinAt spk = addresses := by
      rw [AddressStore.recvCoinAt_eq]
      rw [Bool.not_eq_true, Option.isSome_eq_false_iff,
        Option.isNone_iff_eq_none] at nowhere
      rw [nowhere]
    rw [same]
    exact .refl addresses link

theorem tells_recvCoinsAt
    (addresses : AddressStore)
    (link : TipLink TipRows)
    (spks : List ScriptBuf) :
    Tells addresses link (addresses.recvCoinsAt spks)
      (link.recvCoinsAt addresses spks) := by
  induction spks generalizing addresses link with
  | nil =>
      exact .refl addresses link
  | cons spk later inductionHypothesis =>
      exact (tells_recvCoinAt addresses link spk).trans
        (inductionHypothesis _ _)

omit [LawfulBackend TipRows] [ReliableBackend TipRows] in
/-- The window of a scan whose registered scripts end at a bound: a tip in the
channel makes the listener register whatever is left of it. -/
structure Watched
    (derivator : SpkDerivator)
    (lookAhead : Nat)
    (bound : KeyChain → Nat)
    (addresses : AddressStore)
    (link : TipLink TipRows) : Prop where
  derivator_eq : addresses.derivator = derivator
  lookAhead_eq : addresses.lookAhead = lookAhead
  populated : addresses.Populated
  listening : link.listening = true
  within : ∀ keychain, bound keychain ≤ addresses.watchTip keychain
  told :
    ∀ keychain,
      addresses.watchTip keychain ≤ bound keychain ∨
        ∃ tip ∈ link.tips,
          addresses.watchTip keychain ≤ tip.tipOf keychain
  honest :
    ∀ tip ∈ link.tips, ∀ keychain,
      tip.tipOf keychain ≤ addresses.watchTip keychain
  persisted : Persisted addresses link.account

namespace Watched

variable {derivator : SpkDerivator} {lookAhead : Nat}
variable {bound : KeyChain → Nat}
variable {addresses after : AddressStore} {link : TipLink TipRows}

omit [LawfulBackend TipRows] [ReliableBackend TipRows] in
theorem sameWindow
    (watched : Watched derivator lookAhead bound addresses link)
    (same : after.SameWindow addresses) :
    Watched derivator lookAhead bound after link where
  derivator_eq := same.derivator.trans watched.derivator_eq
  lookAhead_eq := same.lookAhead.trans watched.lookAhead_eq
  populated := same.populated watched.populated
  listening := watched.listening
  within keychain := by
    rw [same.watchTip]
    exact watched.within keychain
  told keychain := by
    rw [same.watchTip]
    exact watched.told keychain
  honest tip member keychain := by
    rw [same.watchTip]
    exact watched.honest tip member keychain
  persisted := watched.persisted.sameWindow same

theorem recvCoinsAt
    (watched : Watched derivator lookAhead bound addresses link)
    (spks : List ScriptBuf) :
    Watched derivator lookAhead bound (addresses.recvCoinsAt spks)
      (link.recvCoinsAt addresses spks) := by
  have tells := tells_recvCoinsAt addresses link spks
  refine ⟨tells.advances.derivator.trans watched.derivator_eq,
    tells.advances.lookAhead.trans watched.lookAhead_eq,
    tells.advances.populated watched.populated,
    tells.listening.trans watched.listening, fun keychain =>
      Nat.le_trans (watched.within keychain)
        (tells.advances.watchTip keychain), fun keychain => ?_,
    fun tip member keychain => ?_, tells.persisted watched.persisted⟩
  · rcases tells.told watched.listening with same | ⟨tip, member, value⟩
    · rw [same]
      exact (watched.told keychain).imp_right
        (fun ⟨tip, member, enough⟩ => ⟨tip, tells.kept tip member, enough⟩)
    · exact Or.inr ⟨tip, member, Nat.le_of_eq (value keychain).symm⟩
  · rcases tells.bounded tip member with old | within
    · exact Nat.le_trans (watched.honest tip old keychain)
        (tells.advances.watchTip keychain)
    · exact within keychain

omit [LawfulBackend TipRows] [ReliableBackend TipRows] in
theorem addressTip
    (watched : Watched derivator lookAhead bound addresses link)
    {place : Nat}
    {tip : AddressTip}
    (here : link.tips[place]? = some tip) :
    Watched derivator lookAhead
      (fun keychain => max (bound keychain) (tip.tipOf keychain))
      addresses { link with tips := link.tips.eraseIdx place } := by
  obtain ⟨inside, rfl⟩ := List.getElem?_eq_some_iff.mp here
  have order := List.getElem_cons_eraseIdx_perm inside
  refine ⟨watched.derivator_eq, watched.lookAhead_eq, watched.populated,
    watched.listening, fun keychain => ?_, fun keychain => ?_,
    fun other member => watched.honest other (List.mem_of_mem_eraseIdx member),
    watched.persisted⟩
  · exact Nat.max_le.mpr ⟨watched.within keychain,
      watched.honest _ (List.getElem_mem inside) keychain⟩
  · rcases watched.told keychain with whole | ⟨other, member, enough⟩
    · exact Or.inl (Nat.le_trans whole (Nat.le_max_left _ _))
    · rcases List.mem_cons.mp (order.mem_iff.mpr member) with rfl | left
      · exact Or.inl (Nat.le_trans enough (Nat.le_max_right _ _))
      · exact Or.inr ⟨other, left, enough⟩

end Watched

end Window

section Registered

variable {StatusRows : Type}
variable [PersistenceBackend StatusRows ScriptBuf StatusEntry]

/-- What is known of the registered scripts: each has been subscribed once, and
the history was asked for of each that is known to be used. -/
structure Subscribed
    (derivator : SpkDerivator)
    (used : KeyChain → Finset Nat)
    (bound : KeyChain → Nat)
    (statuses : RamStore StatusRows ScriptBuf StatusEntry)
    (subscribed requested answered : List ScriptBuf) : Prop where
  known : Known derivator bound statuses
  coherent : statuses.Coherent
  nodup : subscribed.Nodup
  mem_subscribed :
    ∀ spk : ScriptBuf, spk ∈ subscribed ↔ spk ∈ statuses.cache
  mem_requested : ∀ spk ∈ requested, spk ∈ statuses.cache
  requested :
    ∀ (spk : ScriptBuf) (entry : StatusEntry),
      statuses.cache[spk]? = some entry → entry.status.isSome = true →
        UsedSpk derivator used spk ∧ spk ∈ requested
  answered :
    ∀ spk ∈ answered, ∃ entry : StatusEntry,
      statuses.cache[spk]? = some entry ∧
        (entry.status.isSome = true ↔ UsedSpk derivator used spk)

structure SamePlaces
    (before after : RamStore StatusRows ScriptBuf StatusEntry) : Prop where
  mem_iff : ∀ spk : ScriptBuf, spk ∈ after.cache ↔ spk ∈ before.cache
  placed :
    ∀ (spk : ScriptBuf) (entry : StatusEntry),
      after.cache[spk]? = some entry →
        ∃ entry' : StatusEntry, before.cache[spk]? = some entry' ∧
          entry.keychain = entry'.keychain ∧ entry.index = entry'.index

namespace SamePlaces

theorem modify
    (statuses : RamStore StatusRows ScriptBuf StatusEntry)
    (spk : ScriptBuf)
    (status : Option Status) :
    SamePlaces statuses
      (statuses.modify spk
        (fun entry => { entry with status := status })) where
  mem_iff query := by
    rw [Std.ExtTreeMap.mem_iff_isSome_getElem?,
      Std.ExtTreeMap.mem_iff_isSome_getElem?, RamStore.getElem?_cache_modify]
    split <;> simp
  placed query entry stored := by
    rw [RamStore.getElem?_cache_modify] at stored
    split at stored
    · obtain ⟨before, found, rfl⟩ := Option.map_eq_some_iff.mp stored
      exact ⟨before, found, rfl, rfl⟩
    · exact ⟨entry, stored, rfl, rfl⟩

theorem known
    {derivator : SpkDerivator}
    {bound : KeyChain → Nat}
    {before after : RamStore StatusRows ScriptBuf StatusEntry}
    (same : SamePlaces before after)
    (known : Known derivator bound before) :
    Known derivator bound after where
  mem_iff spk := (same.mem_iff spk).trans (known.mem_iff spk)
  placed spk entry stored := by
    obtain ⟨entry', found, keychain, index⟩ := same.placed spk entry stored
    rw [keychain, index]
    exact known.placed spk entry' found

end SamePlaces

namespace Subscribed

variable {derivator : SpkDerivator} {used : KeyChain → Finset Nat}
variable {bound : KeyChain → Nat}
variable {statuses : RamStore StatusRows ScriptBuf StatusEntry}
variable {subscribed requested answered : List ScriptBuf}

theorem sameCache
    (sound :
      Subscribed derivator used bound statuses subscribed requested answered)
    {after : RamStore StatusRows ScriptBuf StatusEntry}
    (same : after.cache = statuses.cache)
    (coherent : after.Coherent) :
    Subscribed derivator used bound after subscribed requested answered where
  known := by
    refine ⟨fun spk => ?_, fun spk entry stored => ?_⟩
    · rw [same]
      exact sound.known.mem_iff spk
    · rw [same] at stored
      exact sound.known.placed spk entry stored
  coherent := coherent
  nodup := sound.nodup
  mem_subscribed := same ▸ sound.mem_subscribed
  mem_requested := same ▸ sound.mem_requested
  requested := same ▸ sound.requested
  answered := same ▸ sound.answered

theorem registers
    {tip : KeyChain → Nat}
    {grown : RamStore StatusRows ScriptBuf StatusEntry}
    {collected : List ScriptBuf}
    (sound :
      Subscribed derivator used bound statuses subscribed requested answered)
    (registers :
      Registers derivator (fun keychain index => index < tip keychain)
        statuses grown collected) :
    Subscribed derivator used
      (fun keychain => max (bound keychain) (tip keychain)) grown
      (subscribed ++ collected) requested answered where
  known := sound.known.registers registers
  coherent := registers.coherent sound.coherent
  nodup := by
    refine List.nodup_append.mpr ⟨sound.nodup, registers.nodup, ?_⟩
    intro spk old other new equal
    rw [← equal, registers.mem_collected] at new
    exact new.1 ((sound.mem_subscribed spk).mp old)
  mem_subscribed := by
    intro spk
    rw [List.mem_append, sound.mem_subscribed, registers.mem_collected]
    constructor
    · rintro (old | ⟨_, new⟩)
      · exact registers.mem old
      · exact new
    · intro stored
      by_cases old : spk ∈ statuses.cache
      · exact Or.inl old
      · exact Or.inr ⟨old, stored⟩
  mem_requested spk member := registers.mem (sound.mem_requested spk member)
  requested := by
    intro spk entry stored seen
    rcases registers.fresh spk entry stored with old | ⟨_, _, _, _, _, rfl⟩
    · exact sound.requested spk entry old seen
    · cases seen
  answered := by
    intro spk member
    obtain ⟨entry, stored, known⟩ := sound.answered spk member
    exact ⟨entry, registers.kept spk entry stored, known⟩

variable {Backend : Type}
variable [PersistenceBackend Backend Txid TxEntry]

variable {listener : Listener Backend StatusRows}

/-- A reported status is recorded, its history is asked for if it is a new one,
and no script is cleared. -/
theorem foldStatus
    (crate : TxCrate)
    (sound :
      Subscribed derivator used bound listener.statuses subscribed requested
        answered)
    {spk : ScriptBuf}
    {status : Option Status}
    (here : spk ∈ subscribed)
    (honest : status.isSome = true ↔ UsedSpk derivator used spk) :
    ∃ (asks dirty : Bool)
      (after : RamStore StatusRows ScriptBuf StatusEntry),
      listener.foldStatus crate spk status =
          (asks, dirty, { listener with statuses := after }) ∧
        Scanner.clearedBy listener spk status = [] ∧
        (dirty = false → after = listener.statuses) ∧
        Subscribed derivator used bound after subscribed
          (requested ++ if asks then [spk] else []) (answered ++ [spk]) := by
  have registered := (sound.mem_subscribed spk).mp here
  obtain ⟨known, found⟩ := BTreeMap.mem_iff_getElem?.mp registered
  have got : listener.statuses.get spk = some known := found
  unfold Listener.foldStatus Scanner.clearedBy
  rw [got]
  dsimp only
  by_cases same : known.status = status
  · rw [if_pos same, if_neg (fun different => different.1 same)]
    refine ⟨false, false, listener.statuses, rfl, rfl, fun _ => rfl,
      { sound with mem_requested := ?_, requested := ?_, answered := ?_ }⟩
    · simpa using sound.mem_requested
    · simpa using sound.requested
    · intro query member
      rcases List.mem_append.mp member with old | new
      · exact sound.answered query old
      · rw [List.mem_singleton.mp new]
        exact ⟨known, found, same ▸ honest⟩
  · rw [if_neg same]
    -- A script that was seen to be used is reported as used.
    have seen : status.isSome = true := by
      cases shown : status with
      | some _ =>
          rfl
      | none =>
          have before : known.status.isSome = true := by
            cases already : known.status with
            | some _ =>
                rfl
            | none =>
                exact absurd (already.trans shown.symm) same
          rw [← shown]
          exact honest.mpr (sound.requested spk known found before).1
    have lookup (query : ScriptBuf) :=
      listener.statuses.getElem?_cache_modify spk query
        (fun entry => { entry with status := status })
    have places := SamePlaces.modify listener.statuses spk status
    refine ⟨true, true, _, by rw [seen]; rfl, ?_, nofun, ?_⟩
    · rw [if_neg]
      rintro ⟨_, absent⟩
      rw [Option.isNone_iff_eq_none] at absent
      rw [absent] at seen
      cases seen
    · refine ⟨places.known sound.known, ?_, sound.nodup, fun query => ?_,
        fun query member => ?_, fun query entry stored recorded => ?_,
        fun query member => ?_⟩
      · unfold RamStore.modify
        split
        · exact sound.coherent
        · exact sound.coherent.insert _ _
      · rw [places.mem_iff]
        exact sound.mem_subscribed query
      · rw [places.mem_iff]
        rcases List.mem_append.mp member with old | new
        · exact sound.mem_requested query old
        · rw [List.mem_singleton.mp new]
          exact registered
      · rw [lookup] at stored
        split at stored
        · rename_i this
          rw [← this]
          exact ⟨honest.mp seen, by simp⟩
        · obtain ⟨its, asked⟩ := sound.requested query entry stored recorded
          exact ⟨its, List.mem_append_left _ asked⟩
      · rw [lookup]
        by_cases this : spk = query
        · rw [if_pos this, ← this, found]
          exact ⟨{ known with status := status }, rfl, honest⟩
        · rw [if_neg this]
          refine sound.answered query ?_
          rcases List.mem_append.mp member with old | new
          · exact old
          · exact absurd (List.mem_singleton.mp new).symm this

/-- Reported statuses are recorded one by one, the new ones' histories are asked
for, and no script is cleared. -/
theorem foldStatuses
    (TipRows : Type)
    [PersistenceBackend TipRows String Nat]
    (crate : TxCrate)
    (sound :
      Subscribed derivator used bound listener.statuses subscribed requested
        answered)
    {rows : List (ScriptBuf × Option Status)}
    (here : ∀ row ∈ rows, row.1 ∈ subscribed)
    (honest :
      ∀ row ∈ rows,
        row.2.isSome = true ↔ UsedSpk derivator used row.1) :
    ∃ (spks : List ScriptBuf) (dirty : Bool)
      (after : RamStore StatusRows ScriptBuf StatusEntry),
      listener.foldStatuses crate rows =
          (spks, dirty, { listener with statuses := after }) ∧
        (∀ link : TipLink TipRows,
          Scanner.linkStatuses crate listener link rows = link) ∧
        (dirty = false → after = listener.statuses) ∧
        Subscribed derivator used bound after subscribed (requested ++ spks)
          (answered ++ rows.map Prod.fst) := by
  induction rows generalizing listener requested answered with
  | nil =>
      exact ⟨[], false, listener.statuses, rfl, fun _ => rfl, fun _ => rfl,
        by simpa using sound⟩
  | cons row later inductionHypothesis =>
      obtain ⟨spk, status⟩ := row
      obtain ⟨asks, dirty, between, first, nothing, clean, sound'⟩ :=
        sound.foldStatus crate (here _ List.mem_cons_self)
          (honest (spk, status) List.mem_cons_self)
      let folded : Listener Backend StatusRows :=
        { listener with statuses := between }
      have recorded :
          Subscribed derivator used bound folded.statuses subscribed
            (requested ++ if asks then [spk] else []) (answered ++ [spk]) :=
        sound'
      obtain ⟨spks, dirty', after, rest, quiet, clean', sound''⟩ :=
        inductionHypothesis recorded
          (fun row member => here row (List.mem_cons_of_mem _ member))
          (fun row member => honest row (List.mem_cons_of_mem _ member))
      refine ⟨(if asks then spk :: spks else spks), dirty || dirty', after,
        ?_, fun link => ?_, fun unmoved => ?_, ?_⟩
      · rw [Listener.foldStatuses, first]
        dsimp only
        rw [show { listener with statuses := between } = folded from rfl, rest]
      · rw [Scanner.linkStatuses, first, nothing]
        exact quiet link
      · rw [Bool.or_eq_false_iff] at unmoved
        exact (clean' unmoved.2).trans (clean unmoved.1)
      · have asked :
            requested ++ (if asks then spk :: spks else spks) =
              requested ++ (if asks then [spk] else []) ++ spks := by
          cases asks <;> simp
        rw [asked, List.map_cons]
        simpa using sound''

end Subscribed

end Registered

end Bwk
