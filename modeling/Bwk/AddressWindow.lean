import Bwk.Listener

namespace Bwk

/-!
# The watch window

How far the address store of an account derives on each keychain.  A script of
the window that the server reports on moves the keychain's tip up to its index,
and the window a look-ahead past it; nothing else a scan does to the coin store
touches the window.
-/

namespace SpkDerivator

/-- No script is derived twice. -/
def Distinct (derivator : SpkDerivator) : Prop :=
  ∀ account index other index',
    derivator.scriptAt account index = derivator.scriptAt other index' →
      account = other ∧ index = index'

end SpkDerivator

namespace AddressStore

/-- The last index of a keychain known to be used. -/
def generatedTip (addresses : AddressStore) : KeyChain → Nat
  | .receive => addresses.recvGeneratedTip
  | .change => addresses.changeGeneratedTip

def watchTip (addresses : AddressStore) : KeyChain → Nat
  | .receive => addresses.recvWatchTip
  | .change => addresses.changeWatchTip

theorem watchTip_eq
    (addresses : AddressStore)
    (account : KeyChain) :
    addresses.watchTip account =
      addresses.generatedTip account + addresses.lookAhead + 1 := by
  cases account <;> rfl

/-- Two stores that derive the same scripts as far, and watch the same. -/
structure SameWindow (first second : AddressStore) : Prop where
  derivator : first.derivator = second.derivator
  lookAhead : first.lookAhead = second.lookAhead
  generatedTip :
    ∀ account, first.generatedTip account = second.generatedTip account
  watched : ∀ spk, spk ∈ first.store ↔ spk ∈ second.store

namespace SameWindow

theorem refl (addresses : AddressStore) : SameWindow addresses addresses :=
  ⟨rfl, rfl, fun _ => rfl, fun _ => Iff.rfl⟩

theorem trans
    {first second third : AddressStore}
    (same : SameWindow first second)
    (same' : SameWindow second third) :
    SameWindow first third where
  derivator := same.derivator.trans same'.derivator
  lookAhead := same.lookAhead.trans same'.lookAhead
  generatedTip account :=
    (same.generatedTip account).trans (same'.generatedTip account)
  watched spk := (same.watched spk).trans (same'.watched spk)

theorem watchTip
    {first second : AddressStore}
    (same : SameWindow first second)
    (account : KeyChain) :
    first.watchTip account = second.watchTip account := by
  rw [watchTip_eq, watchTip_eq, same.generatedTip, same.lookAhead]

end SameWindow

/-- Every index of the window is watched. -/
def Populated (addresses : AddressStore) : Prop :=
  ∀ account, ∀ index ≤ addresses.watchTip account,
    addresses.derivator.scriptAt account index ∈ addresses.store

theorem SameWindow.populated
    {first second : AddressStore}
    (same : SameWindow first second)
    (populated : second.Populated) :
    first.Populated := by
  intro account index within
  rw [same.watched, same.derivator]
  exact populated account index (same.watchTip account ▸ within)

/-- Watching one more script changes neither tip and drops no script. -/
structure Grows (before after : AddressStore) : Prop where
  derivator : after.derivator = before.derivator
  lookAhead : after.lookAhead = before.lookAhead
  generatedTip :
    ∀ account, after.generatedTip account = before.generatedTip account
  kept : ∀ spk ∈ before.store, spk ∈ after.store

variable (account : KeyChain) (addresses : AddressStore)

theorem grows_watch
    (index : Nat) :
    Grows addresses (watch account addresses index) ∧
      addresses.derivator.scriptAt account index ∈
        (watch account addresses index).store := by
  unfold watch
  split
  · rename_i present
    exact ⟨⟨rfl, rfl, fun _ => rfl, fun _ member => member⟩, present⟩
  · refine ⟨⟨rfl, rfl, fun _ => by cases ‹KeyChain› <;> rfl,
      fun spk member => ?_⟩, ?_⟩
    · simp [member]
    · simp

theorem grows_watches
    (indices : List Nat)
    (addresses : AddressStore) :
    Grows addresses (indices.foldl (watch account) addresses) ∧
      ∀ index ∈ indices,
        addresses.derivator.scriptAt account index ∈
          (indices.foldl (watch account) addresses).store := by
  induction indices generalizing addresses with
  | nil =>
      exact ⟨⟨rfl, rfl, fun _ => rfl, fun _ member => member⟩, by simp⟩
  | cons first later inductionHypothesis =>
      obtain ⟨grows, added⟩ := grows_watch account addresses first
      obtain ⟨further, rest⟩ :=
        inductionHypothesis (watch account addresses first)
      refine ⟨⟨further.derivator.trans grows.derivator,
        further.lookAhead.trans grows.lookAhead,
        fun account =>
          (further.generatedTip account).trans (grows.generatedTip account),
        fun spk member => further.kept spk (grows.kept spk member)⟩, ?_⟩
      intro index member
      rcases List.mem_cons.mp member with rfl | inside
      · exact further.kept _ added
      · rw [← grows.derivator]
        exact rest index inside

theorem populateMaybe_spec (addresses : AddressStore) :
    Grows addresses addresses.populateMaybe ∧
      addresses.populateMaybe.Populated := by
  obtain ⟨received, recvs⟩ :=
    grows_watches .receive (List.range (addresses.recvWatchTip + 1)) addresses
  obtain ⟨changed, changes⟩ :=
    grows_watches .change (List.range (addresses.changeWatchTip + 1))
      ((List.range (addresses.recvWatchTip + 1)).foldl (watch .receive)
        addresses)
  have grows : Grows addresses addresses.populateMaybe :=
    ⟨changed.derivator.trans received.derivator,
      changed.lookAhead.trans received.lookAhead,
      fun account =>
        (changed.generatedTip account).trans (received.generatedTip account),
      fun spk member => changed.kept spk (received.kept spk member)⟩
  refine ⟨grows, ?_⟩
  intro account index within
  have ends :
      addresses.populateMaybe.watchTip account =
        addresses.watchTip account := by
    rw [watchTip_eq, watchTip_eq, grows.generatedTip, grows.lookAhead]
  rw [ends] at within
  rw [grows.derivator]
  cases account with
  | receive =>
      exact changed.kept _
        (recvs index (List.mem_range.mpr (Nat.lt_succ_of_le within)))
  | change =>
      rw [← received.derivator]
      exact changes index (List.mem_range.mpr (Nat.lt_succ_of_le within))

/-- The tip of a keychain moves up to an index, the other one stays, and the
window is populated. -/
theorem updateTip_spec
    (account : KeyChain)
    (index : Nat) :
    (addresses.updateTip account index).derivator = addresses.derivator ∧
      (addresses.updateTip account index).lookAhead = addresses.lookAhead ∧
      (∀ other,
        (addresses.updateTip account index).generatedTip other =
          if other = account then
            max (addresses.generatedTip other) index
          else
            addresses.generatedTip other) ∧
      (addresses.updateTip account index).Populated := by
  cases account with
  | receive =>
      obtain ⟨grows, populated⟩ :=
        populateMaybe_spec
          { addresses with
            recvGeneratedTip := max addresses.recvGeneratedTip index }
      refine ⟨grows.derivator, grows.lookAhead, fun other => ?_, populated⟩
      refine (grows.generatedTip other).trans ?_
      cases other <;> rfl
  | change =>
      obtain ⟨grows, populated⟩ :=
        populateMaybe_spec
          { addresses with
            changeGeneratedTip := max addresses.changeGeneratedTip index }
      refine ⟨grows.derivator, grows.lookAhead, fun other => ?_, populated⟩
      refine (grows.generatedTip other).trans ?_
      cases other <;> rfl

def located (addresses : AddressStore) (spk : ScriptBuf) :
    Option (KeyChain × Nat) :=
  match addresses.getEntry spk with
  | some entry => some (entry.account, entry.index)
  | none => addresses.locateSpk spk

theorem recvCoinAt_eq
    (spk : ScriptBuf) :
    addresses.recvCoinAt spk =
      match addresses.located spk with
      | some (account, index) => addresses.updateTip account index
      | none => addresses := by
  unfold recvCoinAt located
  cases addresses.getEntry spk with
  | some entry =>
      rfl
  | none =>
      rfl

theorem located_scriptAt
    {addresses : AddressStore}
    (distinct : addresses.derivator.Distinct)
    (populated : addresses.Populated)
    {account : KeyChain}
    {index : Nat}
    (within : index ≤ addresses.watchTip account) :
    addresses.located (addresses.derivator.scriptAt account index) =
      some (account, index) := by
  obtain ⟨entry, found⟩ :=
    BTreeMap.mem_iff_getElem?.mp (populated account index within)
  obtain ⟨rfl, rfl⟩ :=
    distinct _ _ _ _ (addresses.derived _ entry found)
  unfold located getEntry
  rw [found]

def recvCoinsAt (addresses : AddressStore) (spks : List ScriptBuf) :
    AddressStore :=
  spks.foldl recvCoinAt addresses

/-- Reports keep the derivation and the look-ahead, lower no tip, and keep the
window populated. -/
structure Advances (before after : AddressStore) : Prop where
  derivator : after.derivator = before.derivator
  lookAhead : after.lookAhead = before.lookAhead
  generatedTip :
    ∀ account, before.generatedTip account ≤ after.generatedTip account
  populated : before.Populated → after.Populated

namespace Advances

theorem refl (addresses : AddressStore) : Advances addresses addresses :=
  ⟨rfl, rfl, fun _ => Nat.le_refl _, id⟩

theorem trans
    {first second third : AddressStore}
    (advances : Advances first second)
    (advances' : Advances second third) :
    Advances first third where
  derivator := advances'.derivator.trans advances.derivator
  lookAhead := advances'.lookAhead.trans advances.lookAhead
  generatedTip account :=
    Nat.le_trans (advances.generatedTip account)
      (advances'.generatedTip account)
  populated initial := advances'.populated (advances.populated initial)

theorem watchTip
    {before after : AddressStore}
    (advances : Advances before after)
    (account : KeyChain) :
    before.watchTip account ≤ after.watchTip account := by
  rw [watchTip_eq, watchTip_eq, advances.lookAhead]
  have tips := advances.generatedTip account
  omega

end Advances

theorem SameWindow.advances
    {first second : AddressStore}
    (same : SameWindow first second) :
    Advances second first where
  derivator := same.derivator
  lookAhead := same.lookAhead
  generatedTip account := Nat.le_of_eq (same.generatedTip account).symm
  populated := same.populated

variable {account : KeyChain} {index : Nat}

theorem advances_recvCoinAt
    (spk : ScriptBuf) :
    Advances addresses (addresses.recvCoinAt spk) := by
  rw [recvCoinAt_eq]
  cases addresses.located spk with
  | none =>
      exact .refl addresses
  | some place =>
      obtain ⟨account, index⟩ := place
      obtain ⟨derivator, lookAhead, tips, populated⟩ :=
        addresses.updateTip_spec account index
      refine ⟨derivator, lookAhead, fun other => ?_, fun _ => populated⟩
      dsimp only
      rw [tips]
      split
      · exact Nat.le_max_left _ _
      · exact Nat.le_refl _

theorem advances_recvCoinsAt
    (spks : List ScriptBuf) :
    Advances addresses (addresses.recvCoinsAt spks) := by
  induction spks generalizing addresses with
  | nil =>
      exact .refl addresses
  | cons spk later inductionHypothesis =>
      exact (addresses.advances_recvCoinAt spk).trans
        (inductionHypothesis (addresses.recvCoinAt spk))

theorem le_generatedTip_recvCoinAt
    {addresses : AddressStore}
    (distinct : addresses.derivator.Distinct)
    (populated : addresses.Populated)
    (within : index ≤ addresses.watchTip account) :
    index ≤
      (addresses.recvCoinAt
        (addresses.derivator.scriptAt account index)).generatedTip
          account := by
  rw [recvCoinAt_eq, located_scriptAt distinct populated within]
  obtain ⟨_, _, tips, _⟩ := addresses.updateTip_spec account index
  dsimp only
  rw [tips, if_pos rfl]
  exact Nat.le_max_right _ _

theorem le_generatedTip_recvCoinsAt
    {addresses : AddressStore}
    (distinct : addresses.derivator.Distinct)
    (populated : addresses.Populated)
    (within : index ≤ addresses.watchTip account)
    {spks : List ScriptBuf}
    (reported : addresses.derivator.scriptAt account index ∈ spks) :
    index ≤ (addresses.recvCoinsAt spks).generatedTip account := by
  induction spks generalizing addresses with
  | nil =>
      cases reported
  | cons spk later inductionHypothesis =>
      have advances := addresses.advances_recvCoinAt spk
      rcases List.mem_cons.mp reported with rfl | inside
      · exact Nat.le_trans
          (le_generatedTip_recvCoinAt distinct populated within)
          ((advances_recvCoinsAt _ later).generatedTip account)
      · exact inductionHypothesis
          (advances.derivator.symm ▸ distinct)
          (advances.populated populated)
          (Nat.le_trans within (advances.watchTip account))
          (advances.derivator.symm ▸ inside)

end AddressStore

namespace CoinStore

variable {Backend : Type}

theorem sameWindow_setUsage
    (addresses : AddressStore)
    (spk : ScriptBuf)
    (status : AddressStatus)
    (fundingTxids spendingTxids : BTreeSet Txid) :
    (addresses.setUsage spk status fundingTxids
      spendingTxids).SameWindow addresses := by
  unfold AddressStore.setUsage
  split
  · exact .refl addresses
  · rename_i entry present
    refine ⟨rfl, rfl, fun account => by cases account <;> rfl,
      fun query => ?_⟩
    rw [Std.ExtTreeMap.mem_insert]
    constructor
    · rintro (same | stored)
      · rw [← Std.compare_eq_iff_eq.mp same]
        exact BTreeMap.mem_iff_getElem?.mpr ⟨entry, present⟩
      · exact stored
    · exact Or.inr

theorem sameWindow_updateAddresses
    (coins : CoinStore Backend)
    (coinMap : BTreeMap OutPoint Coin) :
    (coins.updateAddresses coinMap).SameWindow coins.addressStore := by
  unfold updateAddresses
  dsimp only
  generalize (Std.ExtTreeSet.ofList
    (coinMap.toList.map (fun row => row.2.spk))).toList = spks
  suffices every : ∀ addresses : AddressStore,
      (spks.foldl
        (fun addresses spk =>
          addresses.setUsage spk (usage coinMap spk)
            (CoinStore.fundingTxids coinMap spk)
            (coins.spendingTxids coinMap spk))
        addresses).SameWindow addresses from every coins.addressStore
  intro addresses
  induction spks generalizing addresses with
  | nil =>
      exact .refl addresses
  | cons spk later inductionHypothesis =>
      exact (inductionHypothesis _).trans (sameWindow_setUsage _ _ _ _ _)

variable [PersistenceBackend Backend Txid TxEntry]
variable (crate : TxCrate)

theorem sameWindow_generate (coins : CoinStore Backend) :
    (coins.generate crate).addressStore.SameWindow coins.addressStore :=
  sameWindow_updateAddresses coins (coins.coinMap crate)

variable (coins : CoinStore Backend)

omit [PersistenceBackend Backend Txid TxEntry] in
theorem addressStore_updateHistories
    (hist : List (ScriptBuf × History)) :
    (coins.updateHistories hist).2.addressStore =
      coins.addressStore.recvCoinsAt (hist.map Prod.fst) := by
  induction hist generalizing coins with
  | nil =>
      rfl
  | cons row later inductionHypothesis =>
      obtain ⟨spk, history⟩ := row
      have unclaimed :
          ∀ (txids : List Txid) (coins : CoinStore Backend),
            (txids.foldl dropAllPendingClaims coins).addressStore =
              coins.addressStore := by
        intro txids
        induction txids with
        | nil =>
            exact fun _ => rfl
        | cons txid rest dropped =>
            exact fun coins => dropped (coins.dropAllPendingClaims txid)
      have folded :
          (updateSpkHistory
            { coins with
              addressStore := coins.addressStore.recvCoinAt spk }
            spk history).2.addressStore =
            coins.addressStore.recvCoinAt spk :=
        unclaimed _ _
      rw [updateHistories]
      dsimp only
      rw [inductionHypothesis, folded]
      rfl

theorem sameWindow_handleHistoryResponse
    (hist : BTreeMap ScriptBuf History) :
    (coins.handleHistoryResponse crate hist).2.addressStore.SameWindow
      (coins.addressStore.recvCoinsAt (hist.toList.map Prod.fst)) := by
  rw [← addressStore_updateHistories]
  unfold handleHistoryResponse
  dsimp only
  split
  · exact .refl _
  · exact sameWindow_generate crate _

theorem sameWindow_commitHistory
    (outcome : HistoryOutcome) :
    (coins.commitHistory crate outcome).addressStore.SameWindow
      coins.addressStore := by
  unfold commitHistory
  dsimp only
  split
  · refine (sameWindow_generate crate _).trans ?_
    rw [recordReportedHeights_eq]
    exact .refl _
  · rw [recordReportedHeights_eq]
    exact .refl _

end CoinStore

end Bwk
