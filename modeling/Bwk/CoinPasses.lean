import Bwk.CoinFolds

namespace Bwk

/-!
# What a pass over the chain does to the stored transactions

The two passes of a chain update are loops whose step either leaves the pass
as it is, asks for a proof again, or stamps one transaction with the block the
chain has at its height.  Facts about whole passes are derived from that.
-/

namespace CoinStore

variable {Backend HeaderRows Raw : Type}
variable {btc : Bitcoin Raw} {headers : HeaderStore HeaderRows Raw}
variable {crate : TxCrate}

variable (inv : ChainPass Backend → Prop) {pass : ChainPass Backend}
variable {inclusion : Inclusion}

variable {coins : CoinStore Backend}

theorem mem_snapshotInclusions
    {txid : Txid} :
    (txid, inclusion) ∈ coins.snapshotInclusions ↔
      coins.txStore.inclusionOf txid = some inclusion := by
  simp only [snapshotInclusions, TxStore.iter, List.mem_map, Prod.exists,
    Std.ExtTreeMap.mem_toList_iff_getElem?_eq_some, Prod.mk.injEq,
    TxStore.inclusionOf, TxStore.get, RamStore.get,
    Option.map_eq_some_iff]
  constructor
  · rintro ⟨_, entry, found, rfl, rfl⟩
    exact ⟨entry, found, rfl⟩
  · rintro ⟨entry, found, rfl⟩
    exact ⟨txid, entry, found, rfl, rfl⟩

theorem reverifyEntry_cases
    (btc : Bitcoin Raw)
    (headers : HeaderStore HeaderRows Raw)
    (pass : ChainPass Backend)
    (entry : Txid × Inclusion) :
    reverifyEntry btc headers pass entry = pass ∨
      (∃ height blockHash,
        entry.2 = .confirmedUnverified height blockHash ∧
        (⟨entry.1, height⟩ : ClaimAt) ∉ pass.coins.merkleInFlight ∧
        reverifyEntry btc headers pass entry =
          pass.requeue ⟨entry.1, height⟩) ∨
      (∃ height blockHash current,
        headers.blockHash btc height = some current ∧
        current ≠ blockHash ∧
        (entry.2 = .confirmedUnverified height blockHash ∨
          entry.2 = .verified height blockHash ∨
          entry.2 = .verifyFailed height blockHash) ∧
        reverifyEntry btc headers pass entry =
          pass.stamp ⟨entry.1, height⟩ current) := by
  obtain ⟨txid, inclusion⟩ := entry
  cases inclusion with
  | unconfirmed =>
      exact .inl rfl
  | confirmedUnverified height blockHash =>
      cases known : headers.blockHash btc height with
      | none =>
          exact .inl (by simp [reverifyEntry, known])
      | some current =>
          by_cases flying :
              (⟨txid, height⟩ : ClaimAt) ∈ pass.coins.merkleInFlight
          · exact .inl (by simp [reverifyEntry, known, flying])
          · by_cases same : current = blockHash
            · exact .inr (.inl ⟨height, blockHash, rfl, flying,
                by simp [reverifyEntry, known, flying, same]⟩)
            · exact .inr (.inr ⟨height, blockHash, current, known, same,
                .inl rfl, by simp [reverifyEntry, known, flying, same]⟩)
  | verified height blockHash | verifyFailed height blockHash =>
      cases known : headers.blockHash btc height with
      | none =>
          exact .inl (by simp [reverifyEntry, known])
      | some current =>
          by_cases same : current = blockHash
          · exact .inl (by simp [reverifyEntry, known, same])
          · exact .inr (.inr ⟨height, blockHash, current, known, same,
              .inr (by simp), by simp [reverifyEntry, known, same]⟩)

theorem resolveClaim_cases
    (btc : Bitcoin Raw)
    (headers : HeaderStore HeaderRows Raw)
    (pass : ChainPass Backend)
    (claim : ClaimAt) :
    resolveClaim btc headers pass claim = pass ∨
      ∃ blockHash,
        headers.blockHash btc claim.height = some blockHash ∧
        pass.coins.txStore.inclusionOf claim.txid = some .unconfirmed ∧
        resolveClaim btc headers pass claim = pass.stamp claim blockHash := by
  unfold resolveClaim
  split
  · rename_i blockHash unconfirmed ready
    unfold readyHash at ready
    split at ready
    · exact .inr ⟨blockHash, ready, unconfirmed, rfl⟩
    · cases ready
  · exact .inl rfl

@[simp] theorem inclusionOf_stamp
    (pass : ChainPass Backend)
    (claim : ClaimAt)
    (blockHash : BlockHash)
    (txid : Txid) :
    (pass.stamp claim blockHash).coins.txStore.inclusionOf txid =
      if claim.txid = txid then
        (pass.coins.txStore.inclusionOf txid).map
          (fun _ => .confirmedUnverified claim.height blockHash)
      else
        pass.coins.txStore.inclusionOf txid :=
  TxStore.inclusionOf_updateInclusion ..

theorem keyed_updateInclusion
    {txs : TxStore Backend}
    (keyed : txs.Keyed crate)
    (txid : Txid)
    (inclusion : Inclusion) :
    (txs.updateInclusion txid inclusion).Keyed crate := by
  intro query entry stored
  rw [TxStore.get_updateInclusion] at stored
  split at stored
  · obtain ⟨old, found, rfl⟩ := Option.map_eq_some_iff.mp stored
    exact keyed query old found
  · exact keyed query entry stored

theorem reverifyReminedEntries_keeps
    (start : inv (ChainPass.start coins))
    (step :
      ∀ pass, inv pass → ∀ entry ∈ coins.snapshotInclusions,
        inv (reverifyEntry btc headers pass entry)) :
    inv (reverifyReminedEntries btc headers coins) :=
  List.foldlRecOn _ _ start step

theorem resolveClaims_keeps
    {claims : List ClaimAt}
    (start : inv pass)
    (step :
      ∀ pass claim, inv pass → inv (resolveClaim btc headers pass claim)) :
    inv (resolveClaims btc headers pass claims).2 := by
  induction claims generalizing pass with
  | nil =>
      exact start
  | cons claim rest inductionHypothesis =>
      exact inductionHypothesis (step pass claim start)

theorem removePendingClaim_eq
    (claim : ClaimAt)
    (coins : CoinStore Backend) :
    coins.removePendingClaim claim =
      { coins with
        pendingClaims := (coins.removePendingClaim claim).pendingClaims } := by
  unfold removePendingClaim
  split <;> rfl

theorem removeClaims_eq
    (claims : List ClaimAt)
    (coins : CoinStore Backend) :
    claims.foldl removePendingClaim coins =
      { coins with
        pendingClaims :=
          (claims.foldl removePendingClaim coins).pendingClaims } := by
  induction claims generalizing coins with
  | nil =>
      rfl
  | cons claim rest inductionHypothesis =>
      rw [List.foldl_cons, inductionHypothesis, removePendingClaim_eq]

@[simp] theorem txStore_resolvePendingClaims
    (coins : CoinStore Backend) :
    (resolvePendingClaims btc headers coins).coins.txStore =
      (resolveClaims btc headers (ChainPass.start coins)
        coins.pendingClaimsSnapshot).2.coins.txStore := by
  simp only [resolvePendingClaims]
  rw [removeClaims_eq]

@[simp] theorem merkleInFlight_resolvePendingClaims
    (coins : CoinStore Backend) :
    (resolvePendingClaims btc headers coins).coins.merkleInFlight =
      (resolveClaims btc headers (ChainPass.start coins)
        coins.pendingClaimsSnapshot).2.coins.merkleInFlight := by
  simp only [resolvePendingClaims]
  rw [removeClaims_eq]

@[simp] theorem outcome_resolvePendingClaims
    (coins : CoinStore Backend) :
    (resolvePendingClaims btc headers coins).outcome =
      (resolveClaims btc headers (ChainPass.start coins)
        coins.pendingClaimsSnapshot).2.outcome :=
  rfl

/-- Every inclusion is as before, or stamped with a block of the chain. -/
def Stamped
    (btc : Bitcoin Raw)
    (headers : HeaderStore HeaderRows Raw)
    (before after : TxStore Backend) : Prop :=
  ∀ txid, after.inclusionOf txid = before.inclusionOf txid ∨
    ∃ height blockHash,
      headers.blockHash btc height = some blockHash ∧
      after.inclusionOf txid = some (.confirmedUnverified height blockHash)

theorem Stamped.stamp
    {before : TxStore Backend}
    {claim : ClaimAt}
    {blockHash : BlockHash}
    (stamped : Stamped btc headers before pass.coins.txStore)
    (known : headers.blockHash btc claim.height = some blockHash) :
    Stamped btc headers before
      (pass.stamp claim blockHash).coins.txStore := by
  intro txid
  rw [inclusionOf_stamp]
  split
  · cases stored : pass.coins.txStore.inclusionOf txid with
    | none =>
        have asBefore := stamped txid
        rw [stored] at asBefore
        rcases asBefore with same | ⟨height, hash, -, impossible⟩
        · exact .inl same
        · cases impossible
    | some inclusion =>
        exact .inr ⟨claim.height, blockHash, known, rfl⟩
  · exact stamped txid

theorem stamped_reverifyReminedEntries
    (coins : CoinStore Backend) :
    Stamped btc headers coins.txStore
      (reverifyReminedEntries btc headers coins).coins.txStore := by
  refine reverifyReminedEntries_keeps
    (fun pass => Stamped btc headers coins.txStore pass.coins.txStore)
    (fun _ => .inl rfl) ?_
  intro pass stamped entry _
  rcases reverifyEntry_cases btc headers pass entry with
    same | ⟨height, blockHash, -, -, requeued⟩ |
      ⟨height, blockHash, current, known, -, -, restamped⟩
  · rw [same]
    exact stamped
  · rw [requeued]
    exact stamped
  · rw [restamped]
    exact stamped.stamp known

theorem stamped_resolvePendingClaims
    (coins : CoinStore Backend) :
    Stamped btc headers coins.txStore
      (resolvePendingClaims btc headers coins).coins.txStore := by
  rw [txStore_resolvePendingClaims]
  refine resolveClaims_keeps
    (fun pass => Stamped btc headers coins.txStore pass.coins.txStore)
    (fun _ => .inl rfl) ?_
  intro pass claim stamped
  rcases resolveClaim_cases btc headers pass claim with
    same | ⟨blockHash, known, -, restamped⟩
  · rw [same]
    exact stamped
  · rw [restamped]
    exact stamped.stamp known

theorem Sound.stamp
    (sound : pass.coins.Sound crate)
    (claim : ClaimAt)
    (blockHash : BlockHash) :
    (pass.stamp claim blockHash).coins.Sound crate :=
  ⟨keyed_updateInclusion sound.keyed _ _, sound.slots⟩

theorem Sound.reverifyReminedEntries
    (sound : coins.Sound crate) :
    (coins.reverifyReminedEntries btc headers).coins.Sound crate := by
  refine reverifyReminedEntries_keeps
    (fun pass => pass.coins.Sound crate) sound ?_
  intro pass soundPass entry _
  rcases reverifyEntry_cases btc headers pass entry with
    same | ⟨height, blockHash, -, -, requeued⟩ |
      ⟨height, blockHash, current, -, -, -, restamped⟩
  · rw [same]
    exact soundPass
  · rw [requeued]
    exact ⟨soundPass.keyed, soundPass.slots⟩
  · rw [restamped]
    exact soundPass.stamp _ _

theorem Sound.resolvePendingClaims
    (sound : coins.Sound crate) :
    (coins.resolvePendingClaims btc headers).coins.Sound crate := by
  have loop :
      (resolveClaims btc headers (ChainPass.start coins)
        coins.pendingClaimsSnapshot).2.coins.Sound crate := by
    refine resolveClaims_keeps (fun pass => pass.coins.Sound crate) sound ?_
    intro pass claim soundPass
    rcases resolveClaim_cases btc headers pass claim with
      same | ⟨blockHash, -, -, restamped⟩
    · rw [same]
      exact soundPass
    · rw [restamped]
      exact soundPass.stamp _ _
  simp only [CoinStore.resolvePendingClaims]
  rw [removeClaims_eq]
  exact ⟨loop.keyed, loop.slots⟩

theorem Stamped.trans
    {before middle after : TxStore Backend}
    (first : Stamped btc headers before middle)
    (second : Stamped btc headers middle after) :
    Stamped btc headers before after := by
  intro txid
  rcases second txid with same | restamped
  · rw [same]
    exact first txid
  · exact .inr restamped

/-- A transaction a pass leaves alone and does not fetch. -/
def Untouched
    (txid : Txid)
    (inclusion : Inclusion)
    (pass : ChainPass Backend) : Prop :=
  pass.coins.txStore.inclusionOf txid = some inclusion ∧
    ∀ claim ∈ pass.outcome.toFetch, claim.txid ≠ txid

theorem Untouched.stamp
    {txid : Txid}
    {claim : ClaimAt}
    {blockHash : BlockHash}
    (untouched : Untouched txid inclusion pass)
    (other : claim.txid ≠ txid) :
    Untouched txid inclusion (pass.stamp claim blockHash) := by
  refine ⟨?_, ?_⟩
  · rw [inclusionOf_stamp, if_neg other]
    exact untouched.1
  · intro fetched listed
    rcases List.mem_append.mp listed with earlier | last
    · exact untouched.2 fetched earlier
    · rw [List.mem_singleton.mp last]
      exact other

section Frozen

variable {coins : CoinStore Backend} {txid : Txid}
variable {height : Nat} {blockHash : BlockHash}

theorem untouched_reverifyReminedEntries
    (failed :
      coins.txStore.inclusionOf txid = some (.verifyFailed height blockHash))
    (stays : headers.blockHash btc height = some blockHash) :
    Untouched txid (.verifyFailed height blockHash)
      (coins.reverifyReminedEntries btc headers) := by
  refine reverifyReminedEntries_keeps
    (Untouched txid (.verifyFailed height blockHash))
    ⟨failed, by simp [ChainPass.start]⟩ ?_
  rintro pass untouched ⟨name, inclusion⟩ listed
  have stored := mem_snapshotInclusions.mp listed
  -- The snapshot shows the transaction itself as refused at its own block.
  have atName :
      name = txid → inclusion = .verifyFailed height blockHash := by
    rintro rfl
    rw [failed] at stored
    exact (Option.some.inj stored).symm
  rcases reverifyEntry_cases btc headers pass (name, inclusion) with
    same | ⟨claimed, hash, isClaimed, -, requeued⟩ |
      ⟨claimed, hash, current, known, moved, shape, restamped⟩
  · rw [same]
    exact untouched
  · rw [requeued]
    have other : name ≠ txid := by
      intro here
      rw [atName here] at isClaimed
      cases isClaimed
    refine ⟨untouched.1, ?_⟩
    intro fetched member
    rcases List.mem_append.mp member with earlier | last
    · exact untouched.2 fetched earlier
    · rw [List.mem_singleton.mp last]
      exact other
  · rw [restamped]
    refine untouched.stamp ?_
    intro here
    rw [atName here] at shape
    rcases shape with impossible | impossible | same
    · cases impossible
    · cases impossible
    · cases same
      rw [stays] at known
      exact moved (Option.some.inj known).symm

theorem untouched_resolvePendingClaims
    (btc : Bitcoin Raw)
    (headers : HeaderStore HeaderRows Raw)
    (failed :
      coins.txStore.inclusionOf txid =
        some (.verifyFailed height blockHash)) :
    Untouched txid (.verifyFailed height blockHash)
      (coins.resolvePendingClaims btc headers) := by
  have loop :
      Untouched txid (.verifyFailed height blockHash)
        (resolveClaims btc headers (ChainPass.start coins)
          coins.pendingClaimsSnapshot).2 := by
    refine resolveClaims_keeps _ ⟨failed, by simp [ChainPass.start]⟩ ?_
    intro pass claim untouched
    rcases resolveClaim_cases btc headers pass claim with
      same | ⟨hash, -, unconfirmed, restamped⟩
    · rw [same]
      exact untouched
    · rw [restamped]
      refine untouched.stamp ?_
      rintro rfl
      rw [untouched.1] at unconfirmed
      cases unconfirmed
  refine ⟨?_, loop.2⟩
  rw [txStore_resolvePendingClaims]
  exact loop.1

end Frozen

end CoinStore

end Bwk
