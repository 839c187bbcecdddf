import Bwk.HeaderRuns
import Bwk.HeaderRanges

namespace Bwk

/-!
# Validity of the stored chain

The abstract statement of what a header store holds: nothing, or a range of
headers that starts on a retarget boundary, begins with the pinned genesis when
it begins at 0, and in which every header above the lowest follows from the
ones below it.  The clock and the median-time rule are left out on purpose:
both are judged against what was known when a header came in and may come out
differently later.
-/

/-- A header that is in its place in `chain`, whose range starts at `low`. -/
structure RowValid
    (btc : Bitcoin Raw)
    (network : Network)
    (chain : HeaderMap Raw)
    (low height : Nat)
    (header : Header) : Prop where
  work : checkPow btc (Params.new btc network) header = .ok ()
  genesis : height = 0 → checkGenesis btc network header = .ok ()
  follows :
    low < height →
      ∃ prev,
        headerAt btc (fun below => chain[below]?) (height - 1) =
          some prev ∧
        checkLinkage btc prev header = .ok () ∧
        (network.relaxesDifficulty = false →
          checkRetarget btc (Params.new btc network)
            (decodeAncestors btc chain height
              (retargetInterval btc network))
            height prev header = .ok ())

/-- What a store may hold. -/
def ValidChain
    (btc : Bitcoin Raw)
    (network : Network)
    (chain : HeaderMap Raw) : Prop :=
  ChainOf btc network (RowValid btc network) chain

section Rows

variable {btc : Bitcoin Raw} {network : Network}

theorem decodeAncestors_getLast?
    (chain : HeaderMap Raw)
    {height : Nat}
    (positive : height ≠ 0) :
    (decodeAncestors btc chain height
        (retargetInterval btc network)).getLast? =
      headerAt btc (fun below => chain[below]?) (height - 1) := by
  obtain ⟨below, rfl⟩ := Nat.exists_eq_succ_of_ne_zero positive
  exact collectAncestors_getLast? btc _ (retargetInterval_pos btc network)
    below

variable {chain : HeaderMap Raw} {low height nowSecs : Nat} {header : Header}

theorem rowValid_of_validateAppend
    (positive : height ≠ 0)
    (accepted :
      validateAppend btc network
        (decodeAncestors btc chain height (retargetInterval btc network))
        height header nowSecs = .ok ()) :
    RowValid btc network chain low height header := by
  rw [validateAppend_eq_ok_iff positive] at accepted
  obtain ⟨-, prev, parent, work, linked, retargets, -⟩ := accepted
  rw [decodeAncestors_getLast? chain positive] at parent
  exact ⟨work, fun atZero => (positive atZero).elim,
    fun _ => ⟨prev, parent, linked, retargets⟩⟩

theorem rowValid_of_replays
    (replays :
      replayRow btc network nowSecs low
        (decodeAncestors btc chain height (retargetInterval btc network))
        height header = .ok ()) :
    RowValid btc network chain low height header := by
  unfold replayRow at replays
  split at replays
  · rename_i atZero
    subst atZero
    rw [validateAppend_zero_eq_ok_iff] at replays
    exact ⟨replays.2.2, fun _ => replays.2.1, fun below => by omega⟩
  · rename_i positive
    split at replays
    · exact rowValid_of_validateAppend positive replays
    · rename_i atFloor
      exact ⟨replays, fun atZero => (positive atZero).elim,
        fun below => (atFloor below).elim⟩

theorem RowValid.congr
    {chain other : HeaderMap Raw}
    {low height : Nat}
    (valid : RowValid btc network chain low height header)
    (same : ∀ below : Nat, below < height → chain[below]? = other[below]?) :
    RowValid btc network other low height header := by
  refine ⟨valid.work, valid.genesis, ?_⟩
  intro above
  obtain ⟨prev, parent, linked, retargets⟩ := valid.follows above
  refine ⟨prev, ?_, linked, ?_⟩
  · rw [← parent]
    simp only [headerAt, same (height - 1) (by omega)]
  · intro judged
    rw [← retargets judged]
    congr 1
    exact (collectAncestors_congr btc height _ same).symm

/--
Lowering the floor keeps a header above the old floor in its place: its parent
is the same, and the difficulty rule only reads a window that was complete.
-/
theorem RowValid.lower
    {chain lowered : HeaderMap Raw}
    {low floor height : Nat}
    (valid : RowValid btc network chain floor height header)
    (above : floor < height)
    (extends_ :
      ∀ (below : Nat) raw, chain[below]? = some raw →
        lowered[below]? = some raw) :
    RowValid btc network lowered low height header := by
  refine ⟨valid.work, valid.genesis, ?_⟩
  intro _
  obtain ⟨prev, parent, linked, retargets⟩ := valid.follows above
  refine ⟨prev, ?_, linked, ?_⟩
  · obtain ⟨raw, present, decoded⟩ := Option.bind_eq_some_iff.mp parent
    exact Option.bind_eq_some_iff.mpr
      ⟨raw, extends_ (height - 1) raw present, decoded⟩
  · intro judged
    refine checkRetarget_of_suffix ?_ ?_ (retargets judged)
    · exact collectAncestors_suffix btc (retargetInterval_pos btc network)
        height extends_
    · exact collectAncestors_length_le btc _
        (retargetInterval_pos btc network) height

end Rows

section Closure

variable {rules : Rules Raw}

theorem ValidChain.shaped
    {btc : Bitcoin Raw}
    {network : Network}
    {chain : HeaderMap Raw}
    (valid : ValidChain btc network chain) :
    Shaped btc chain := by
  rcases valid with empty | ⟨low, high, range⟩
  · exact .inl empty
  · refine .inr ⟨low, high, range.ordered, range.covers, ?_⟩
    intro height raw present
    obtain ⟨header, decoded, -⟩ := range.rows height raw present
    exact ⟨header, decoded⟩

private theorem rowValid_implied :
    Implied rules (RowValid rules.btc rules.network) :=
  fun _ _ _ _ _ _ judged => rowValid_of_replays judged

private theorem rowValid_downward :
    Downward (RowValid rules.btc rules.network) :=
  fun _ _ _ _ _ valid same => valid.congr same

theorem ValidChain.write
    (rules : Rules Raw)
    {chain after : HeaderMap Raw}
    (valid : ValidChain rules.btc rules.network chain)
    (written : Write rules chain after) :
    ValidChain rules.btc rules.network after := by
  rcases written with grown | ⟨low, floor, high, range, nowSecs, lower⟩
  · exact ChainOf.grow rules rowValid_downward rowValid_implied valid grown
  · have stored := ChainOf.range valid lower.covers lower.ordered
    refine .inr ⟨_, _,
      stored.lower rowValid_downward rowValid_implied lower ?_⟩
    intro extends_ height raw header above _ _ inPlace
    exact inPlace.lower above extends_

end Closure

variable {checkpoint : Option Checkpoint} {rows : HeaderMap Raw}

theorem covers_of_sanityCheck
    {btc : Bitcoin Raw}
    {network : Network}
    (sane : sanityCheck btc network checkpoint rows = .ok ()) :
    rows = ∅ ∨
      ∃ low high,
        low ≤ high ∧ rows.Covers low high ∧
          low % retargetInterval btc network = 0 := by
  unfold sanityCheck at sane
  cases first : rows.firstKey? with
  | none =>
      exact .inl (BTreeMap.firstKey?_eq_none_iff.mp first)
  | some low =>
      cases last : rows.lastKey? with
      | none =>
          exact .inl (BTreeMap.lastKey?_eq_none_iff.mp last)
      | some high =>
          simp only [first, last] at sane
          split at sane
          · cases sane
          · rename_i contiguous
            split at sane
            · cases sane
            · rename_i aligned
              obtain ⟨covers, ordered⟩ :=
                BTreeMap.covers_of_span first last (not_not.mp contiguous)
              refine .inr ⟨low, high, ordered, covers, ?_⟩
              by_cases atZero : low = 0
              · simp [atZero]
              · by_contra off
                exact aligned ⟨atZero, off⟩

theorem validChain_of_checks
    {btc : Bitcoin Raw}
    {network : Network}
    {nowSecs : Nat}
    (sane : sanityCheck btc network checkpoint rows = .ok ())
    (replayed : replayValidate btc network rows nowSecs = .ok ()) :
    ValidChain btc network rows := by
  rcases covers_of_sanityCheck sane with
    empty | ⟨low, high, ordered, covers, boundary⟩
  · exact .inl empty
  · refine .inr ⟨low, high, ordered, covers, boundary, ?_⟩
    intro height raw present
    obtain ⟨header, decoded, judged⟩ :=
      (replayValidate_eq_ok_iff covers ordered).mp replayed height raw
        present
    exact ⟨header, decoded, rowValid_of_replays judged⟩

/-- The rules of a store left to any server, at any clock. -/
def anyServer
    (btc : Bitcoin Raw)
    (network : Network)
    (checkpoint : Option Checkpoint) : Rules Raw where
  btc := btc
  network := network
  checkpoint := checkpoint
  anchors := fun _ => True
  clocks := fun _ => True

theorem permits_anyServer
    {btc : Bitcoin Raw}
    {network : Network}
    (env : Env σ Raw) :
    ∀ height ≤ u32Max, Permits (anyServer btc network checkpoint) env height :=
  fun _ inRange => ⟨fun _ _ => trivial, trivial, trivial, inRange⟩

section Validity

variable {σ Backend Raw : Type} [PersistenceBackend Backend Nat Raw]

/-- Validity of the chain, now and at every release of the lock. -/
def validity
    (btc : Bitcoin Raw)
    (network : Network)
    (locked : Inner Backend Raw → Prop) :
    Invariant Backend Raw where
  writerToken := 0
  chain := ValidChain btc network
  past := ValidChain btc network
  locked := locked

theorem stable_trivial (rules : Rules Raw) :
    Stable rules (fun _ : Inner Backend Raw => True) := by
  have trivially :
      ∀ {α : Type} (body : Locked Backend Raw α),
        Keeps (fun _ => True) body := by
    intro α body inner _
    cases body inner <;> trivial
  exact ⟨trivially _, fun _ _ _ _ => trivially _, fun _ _ _ => trivially _,
    fun _ _ => trivially _, fun _ _ _ _ => trivially _⟩

theorem closed_validity
    {btc : Bitcoin Raw}
    {network : Network}
    {locked : Inner Backend Raw → Prop}
    (stable : Stable (anyServer btc network checkpoint) locked) :
    Closed (anyServer btc network checkpoint)
      (validity btc network locked) where
  shaped := ValidChain.shaped
  write := ValidChain.write (anyServer btc network checkpoint)
  recorded := id
  stable := stable

/--
Every header whose parent is stored satisfies the difficulty rule, on every
network.  The validator does not ask for this on the two test networks.
-/
def RetargetsThroughout
    (btc : Bitcoin Raw)
    (network : Network)
    (chain : HeaderMap Raw) : Prop :=
  ∀ (height : Nat) header prev,
    headerAt btc (fun below => chain[below]?) (height + 1) = some header →
    headerAt btc (fun below => chain[below]?) height = some prev →
      checkRetarget btc (Params.new btc network)
        (decodeAncestors btc chain (height + 1)
          (retargetInterval btc network))
        (height + 1) prev header = .ok ()

theorem validChain_withCheckpoint
    (btc : Bitcoin Raw)
    (network : Network)
    (checkpoint : Option Checkpoint)
    (backend : Backend)
    (nowSecs : Nat) :
    ValidChain btc network
      (HeaderStore.withCheckpoint btc nowSecs network checkpoint
        backend).chain := by
  rcases chain_withCheckpoint btc nowSecs network checkpoint backend with
    empty | ⟨rows, sane, replayed⟩
  · exact .inl empty
  · rw [rows]
    exact validChain_of_checks sane replayed

theorem safe_runSessions_withCheckpoint
    {inv : Invariant Backend Raw}
    {btc : Bitcoin Raw}
    {network : Network}
    {backend : Backend}
    {nowSecs : Nat}
    (closed : Closed (anyServer btc network checkpoint) inv)
    (chain :
      inv.chain
        (HeaderStore.withCheckpoint btc nowSecs network checkpoint
          backend).chain)
    (locked :
      inv.locked
        (HeaderStore.withCheckpoint btc nowSecs network checkpoint
          backend).inner)
    (env : Env σ Raw)
    (sessions : List (σ × Nat)) :
    let after :=
      runSessions btc env sessions
        (HeaderStore.withCheckpoint btc nowSecs network checkpoint backend)
    Safe (anyServer btc network checkpoint)
      { inv with writerToken := after.writerToken } after.core := by
  obtain ⟨sameNetwork, sameCheckpoint, untouched⟩ :=
    withCheckpoint_fresh btc nowSecs network checkpoint backend
  refine runSessions_safe closed (permits_anyServer env) sessions _
    ⟨sameNetwork, sameCheckpoint, rfl, chain, locked, ?_⟩
  intro inner member
  rw [show (HeaderStore.withCheckpoint btc nowSecs network checkpoint
    backend).core.released = [] from untouched] at member
  cases member

end Validity

/-- Two headers of which the second claims another target than the first. -/
def easedRows : HeaderMap Header :=
  ((∅ : HeaderMap Header).insert 0
    { version := 1, prevBlockhash := 0, merkleRoot := 0, time := 100
      bits := 1000, nonce := 0 }).insert 1
    { version := 1, prevBlockhash := 0, merkleRoot := 0, time := 200
      bits := 2000, nonce := 1 }

/-- A server that never answers. -/
def silentServer : Env Unit Header where
  send _ _ := none
  recv _ := (.disconnected, ())
  outside _ := []
  clock _ _ := 0

end Bwk
