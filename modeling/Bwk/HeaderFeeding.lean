import Bwk.HeaderReload

namespace Bwk

/-!
# One window, however a chain is fed

Four places of `electrum/src/header_store.rs` put together the ancestors a
header is judged on: an append collects them downward, a batch and a replay
slide a queue, and a branch collects them over the map it is building.  Over a
contiguous chain they are one list.  So the headers of a list are accepted up to
the same one whether they come one at a time, in batches or in a branch, and a
reload keeps exactly the accepted prefixes.
-/

/-- Go on after a computation that stops with a value of its own. -/
def endOf {α : Type} : Except α α → α
  | .ok value => value
  | .error value => value

section Feeding

variable
    (btc : Bitcoin Raw)
    (network : Network)
    (checkpoint : Option Checkpoint)
    (nowSecs : Nat)

/-- What becomes of a header offered right above a chain. -/
inductive RowVerdict where
  | accepted
  | invalid
  | refused
  deriving Repr, DecidableEq

def judgeRow (chain : HeaderMap Raw) (height : Nat) (raw : Raw) : RowVerdict :=
  match btc.deserialize raw with
  | none => .invalid
  | some header =>
      match
        validateAppend btc network
          (decodeAncestors btc chain height (retargetInterval btc network))
          height header nowSecs
      with
      | .error _ => .invalid
      | .ok () =>
          if holdsCheckpoint btc checkpoint height raw then
            .accepted
          else
            .refused

/-- Accept headers from a height up until one is not: an invalid one leaves the
chain, and one that contradicts the checkpoint empties it. -/
def acceptRows :
    HeaderMap Raw → Nat → List Raw →
      Except (HeaderMap Raw) (HeaderMap Raw)
  | chain, _, [] => .ok chain
  | chain, height, raw :: rest =>
      match judgeRow btc network checkpoint nowSecs chain height raw with
      | .accepted => acceptRows (chain.insert height raw) (height + 1) rest
      | .invalid => .error chain
      | .refused => .error ∅

def acceptsAll
    (chain : HeaderMap Raw)
    (height : Nat)
    (raws : List Raw) : Bool :=
  (acceptRows btc network checkpoint nowSecs chain height raws).isOk

/-- Append headers one at a time, up to the first error. -/
def feedOne
    (token : Nat) :
    Nat → List Raw → HeaderStore (HeaderBackend Raw) Raw →
      HeaderStore (HeaderBackend Raw) Raw
  | _, [], store => store
  | height, raw :: rest, store =>
      match store.append btc nowSecs token height raw with
      | (.ok (), next) => feedOne token (height + 1) rest next
      | (.error _, next) => next

/-- Append headers in batches, up to the first error. -/
def feedBatches
    (token : Nat) :
    Nat → List (List Raw) → HeaderStore (HeaderBackend Raw) Raw →
      HeaderStore (HeaderBackend Raw) Raw
  | _, [], store => store
  | height, batch :: rest, store =>
      match store.appendBatch btc (fun _ => nowSecs) token height batch with
      | (.ok (), next) => feedBatches token (height + batch.length) rest next
      | (.error _, next) => next

/-- The window a queue slides to from one height to another. -/
def slidWindow
    (chain : HeaderMap Raw)
    (max start count : Nat) : List Header :=
  (List.range' start count).foldl
    (fun window height =>
      match headerAt btc (fun below => chain[below]?) height with
      | none => window
      | some header => slideWindow max window header)
    (decodeAncestors btc chain start max)

def stacked
    (chain : HeaderMap Raw)
    (height : Nat)
    (raws : List Raw) : HeaderMap Raw :=
  chain.insertAll (runRows height raws)

/-- What is stored of a list of which `count` headers are accepted: they, or
nothing when the next one contradicts the checkpoint. -/
def keptRows
    (chain : HeaderMap Raw)
    (height : Nat)
    (raws : List Raw)
    (count : Nat) : HeaderMap Raw :=
  let accepted := stacked chain height (raws.take count)
  if (raws[count]?).any
      (fun raw =>
        judgeRow btc network checkpoint nowSecs accepted (height + count)
          raw = .refused) then
    ∅
  else
    accepted

end Feeding

section Windows

variable {btc : Bitcoin Raw} {network : Network}

theorem slidWindow_eq
    {chain : HeaderMap Raw}
    {max start count : Nat}
    (positive : 0 < max)
    (decodes :
      ∀ height, start ≤ height → height < start + count →
        ∃ header,
          headerAt btc (fun below => chain[below]?) height = some header) :
    slidWindow btc chain max start count =
      decodeAncestors btc chain (start + count) max := by
  induction count with
  | zero => rfl
  | succ count inductionHypothesis =>
      obtain ⟨header, present⟩ :=
        decodes (start + count) (by omega) (by omega)
      have below :=
        inductionHypothesis fun height above under =>
          decodes height above (by omega)
      rw [slidWindow, List.range'_concat, List.foldl_append]
      rw [slidWindow] at below
      rw [below, Nat.one_mul]
      simp only [List.foldl_cons, List.foldl_nil, present]
      exact (collectAncestors_succ btc _ positive present).symm

theorem decodeAncestors_congr
    {chain other : HeaderMap Raw}
    {height : Nat}
    (max : Nat)
    (same : ∀ below, below < height → chain[below]? = other[below]?) :
    decodeAncestors btc chain height max =
      decodeAncestors btc other height max :=
  collectAncestors_congr btc height max same

end Windows

section Runs

variable {btc : Bitcoin Raw} {network : Network}
variable {checkpoint : Option Checkpoint} {nowSecs : Nat}

theorem stacked_nil (chain : HeaderMap Raw) (height : Nat) :
    stacked chain height [] = chain :=
  rfl

theorem stacked_cons
    (chain : HeaderMap Raw)
    (height : Nat)
    (raw : Raw)
    (rest : List Raw) :
    stacked chain height (raw :: rest) =
      stacked (chain.insert height raw) (height + 1) rest :=
  rfl

variable {height : Nat} {raws : List Raw}

theorem acceptsAll_iff
    {chain : HeaderMap Raw} :
    acceptsAll btc network checkpoint nowSecs chain height raws = true ↔
      ∃ after,
        acceptRows btc network checkpoint nowSecs chain height raws =
          .ok after := by
  unfold acceptsAll
  cases acceptRows btc network checkpoint nowSecs chain height raws with
  | ok after => exact iff_of_true rfl ⟨after, rfl⟩
  | error after =>
      refine iff_of_false (fun impossible => by cases impossible) ?_
      rintro ⟨_, impossible⟩
      cases impossible

theorem acceptRows_ok
    {chain after : HeaderMap Raw}
    (fed :
      acceptRows btc network checkpoint nowSecs chain height raws = .ok after) :
    after = stacked chain height raws := by
  induction raws generalizing chain height with
  | nil =>
      cases fed
      rfl
  | cons raw rest inductionHypothesis =>
      rw [acceptRows] at fed
      cases verdict :
          judgeRow btc network checkpoint nowSecs chain height raw with
      | accepted =>
          rw [verdict] at fed
          exact inductionHypothesis fed
      | invalid | refused =>
          rw [verdict] at fed
          cases fed

theorem acceptRows_append
    (chain : HeaderMap Raw)
    (height : Nat)
    (first second : List Raw) :
    acceptRows btc network checkpoint nowSecs chain height (first ++ second) =
      (acceptRows btc network checkpoint nowSecs chain height first).bind
        fun after =>
          acceptRows btc network checkpoint nowSecs after (height + first.length)
            second := by
  induction first generalizing chain height with
  | nil => rfl
  | cons raw rest inductionHypothesis =>
      rw [List.cons_append, acceptRows, acceptRows]
      cases judgeRow btc network checkpoint nowSecs chain height raw with
      | accepted =>
          rw [List.length_cons, Nat.add_comm rest.length,
            ← Nat.add_assoc]
          exact inductionHypothesis (chain.insert height raw) (height + 1)
      | invalid => rfl
      | refused => rfl

theorem judgeRow_cases
    (chain : HeaderMap Raw)
    (height : Nat)
    (raw : Raw) :
    (judgeRow btc network checkpoint nowSecs chain height raw = .invalid ∧
        (btc.deserialize raw = none ∨
          ∃ header reason,
            btc.deserialize raw = some header ∧
              validateAppend btc network
                (decodeAncestors btc chain height
                  (retargetInterval btc network))
                height header nowSecs = .error reason)) ∨
      ∃ header,
        btc.deserialize raw = some header ∧
          validateAppend btc network
            (decodeAncestors btc chain height
              (retargetInterval btc network))
            height header nowSecs = .ok () ∧
          ((judgeRow btc network checkpoint nowSecs chain height raw =
                .accepted ∧
              holdsCheckpoint btc checkpoint height raw = true) ∨
            (judgeRow btc network checkpoint nowSecs chain height raw =
                .refused ∧
              ¬ holdsCheckpoint btc checkpoint height raw = true)) := by
  unfold judgeRow
  cases decoded : btc.deserialize raw with
  | none => exact .inl ⟨rfl, .inl rfl⟩
  | some header =>
      cases passed :
          validateAppend btc network
            (decodeAncestors btc chain height
              (retargetInterval btc network))
            height header nowSecs with
      | error reason =>
          exact .inl ⟨by simp [passed], .inr ⟨header, reason, rfl, passed⟩⟩
      | ok value =>
          refine .inr ⟨header, rfl, passed, ?_⟩
          by_cases held : holdsCheckpoint btc checkpoint height raw = true
          · exact .inl ⟨by simp [passed, held], held⟩
          · exact .inr ⟨by simp [passed, held], held⟩

end Runs

section Locked

variable {Raw : Type}
variable {btc : Bitcoin Raw} {network : Network}
variable {checkpoint : Option Checkpoint} {nowSecs : Nat}

theorem Holds.fails
    {ε σ α β : Type}
    {pre : σ → Prop}
    {body : EStateM ε σ α}
    {next : α → EStateM ε σ β}
    {post : β → σ → Prop}
    {firstFail fail : ε → σ → Prop}
    (first : Holds pre body (fun _ _ => False) firstFail)
    (failed : ∀ reason state, firstFail reason state → fail reason state) :
    Holds pre (body >>= next) post fail :=
  Holds.bind
    (Holds.conseq first (fun _ holds => holds)
      (fun _ _ impossible => impossible) failed)
    (fun _ _ impossible => impossible.elim)

theorem judge_refuses
    {verdict : Except ValidatorError Unit}
    {reason : ValidatorError}
    {pre : Inner (HeaderBackend Raw) Raw → Prop}
    (failed : verdict = .error reason) :
    Holds pre (judge verdict : Locked (HeaderBackend Raw) Raw Unit)
      (fun _ _ => False) (fun _ => pre) := by
  rw [failed]
  exact Holds.throw (fun _ holds => holds)

variable {token low high : Nat} {chain : HeaderMap Raw} {raw : Raw}
variable {raws : List Raw} {store : HeaderStore (HeaderBackend Raw) Raw}

theorem holdCheckpoint_refuses
    {height : Nat}
    (contradicts : ¬ holdsCheckpoint btc checkpoint height raw = true) :
    Holds (Holding chain)
      (holdCheckpoint btc checkpoint height raw :
        Locked (HeaderBackend Raw) Raw Unit)
      (fun _ _ => False) (fun _ inner => inner.chain = ∅) := by
  rw [holdCheckpoint, if_neg contradicts]
  refine Holds.through (fun _ inner => inner.chain = ∅) ?_ (fun _ => ?_)
  · rintro inner ⟨synced, -⟩
    obtain ⟨after, cleared, emptied, -⟩ := clearInner_synced synced
    rw [cleared]
    exact emptied
  · refine Holds.through (fun _ inner => inner.chain = ∅)
      (Holds.modify (fun _ emptied => emptied)) (fun _ => ?_)
    exact Holds.throw (fun _ emptied => emptied)

theorem appendLocked_judged
    {low high : Nat}
    {incoming : Header}
    (covers : chain.Covers low high)
    (ordered : low ≤ high)
    (decoded : btc.deserialize raw = some incoming) :
    Holds (Holding chain)
      (appendLocked btc network checkpoint (high + 1) raw incoming nowSecs :
        Locked (HeaderBackend Raw) Raw Unit)
      (fun _ inner =>
        acceptRows btc network checkpoint nowSecs chain (high + 1) [raw] =
            .ok (chain.insert (high + 1) raw) ∧
          Holding (chain.insert (high + 1) raw) inner)
      (fun _ inner =>
        acceptRows btc network checkpoint nowSecs chain (high + 1) [raw] =
          .error inner.chain) := by
  rcases @judgeRow_cases _ btc network checkpoint nowSecs chain (high + 1)
      raw with
    ⟨verdict, absent | ⟨header, reason, decoded', failed⟩⟩ |
      ⟨header, decoded', passed, ⟨verdict, held⟩ | ⟨verdict, contradicts⟩⟩
  · rw [absent] at decoded
    cases decoded
  all_goals
    rw [decoded] at decoded'
    cases decoded'
    simp only [acceptRows, verdict]
  · apply Holds.bindGet
    rintro read ⟨-, rfl⟩
    refine Holds.fails (judge_refuses failed) (fun _ _ holding => ?_)
    rw [holding.stores]
  · exact Holds.conseq
      (appendLocked_accepts passed held (covers.insertAbove ordered raw)
        (show low ≤ high + 1 by omega))
      (fun _ holding => holding) (fun _ _ holding => ⟨trivial, holding⟩)
      (fun _ _ impossible => impossible.elim)
  · apply Holds.bindGet
    rintro read ⟨-, rfl⟩
    refine Holds.move (judge_accepts passed)
      (fun _ _ impossible => impossible.elim) (fun _ => ?_)
    refine Holds.fails (holdCheckpoint_refuses contradicts)
      (fun _ inner emptied => ?_)
    rw [emptied]

theorem appendRows_judged
    {low high start index : Nat}
    (covers : chain.Covers low high)
    (ordered : low ≤ high)
    (next : start + index = high + 1)
    (bounded : high + raws.length ≤ u32Max) :
    Holds (Holding chain)
      (appendRows btc network checkpoint (fun _ => nowSecs) false start index
        (decodeAncestors btc chain (high + 1) (retargetInterval btc network))
        raws : Locked (HeaderBackend Raw) Raw Unit)
      (fun _ inner =>
        ∃ after,
          acceptRows btc network checkpoint nowSecs chain (high + 1) raws =
              .ok after ∧
            Holding after inner)
      (fun _ inner =>
        acceptRows btc network checkpoint nowSecs chain (high + 1) raws =
          .error inner.chain) := by
  induction raws generalizing chain high index with
  | nil => exact Holds.pure (fun _ holding => ⟨chain, rfl, holding⟩)
  | cons raw rest inductionHypothesis =>
      rw [List.length_cons] at bounded
      have sum :
          (addHeights start index : Locked (HeaderBackend Raw) Raw Nat) =
            pure (high + 1) := by
        rw [addHeights, if_pos (by omega), next]
      rcases @judgeRow_cases _ btc network checkpoint nowSecs chain (high + 1)
          raw with
        ⟨verdict, absent | ⟨header, reason, decoded, failed⟩⟩ |
          ⟨header, decoded, passed, verdict⟩
      · simp only [appendRows, sum, pure_bind, decode, absent, acceptRows,
          verdict]
        refine Holds.fails (Holds.throw (fun inner holding => ?_))
          (fun _ _ same => same)
        rw [holding.stores]
      · simp only [appendRows, sum, pure_bind, decode, decoded, acceptRows,
          verdict, Bool.false_eq_true, false_and, ↓reduceIte]
        refine Holds.fails (judge_refuses failed)
          (fun _ _ (holding : Holding chain _) => ?_)
        rw [holding.stores]
      · simp only [appendRows, sum, pure_bind, decode, decoded, acceptRows,
          Bool.false_eq_true, false_and, ↓reduceIte]
        refine Holds.move (judge_accepts passed)
          (fun _ _ impossible => impossible.elim) (fun _ => ?_)
        rcases verdict with ⟨verdict, held⟩ | ⟨verdict, contradicts⟩
        · simp only [verdict]
          refine Holds.move (holdCheckpoint_accepts held)
            (fun _ _ impossible => impossible.elim) (fun _ => ?_)
          refine Holds.move (insertRow_accepts chain (high + 1) raw)
            (fun _ _ impossible => impossible.elim) (fun _ => ?_)
          rw [← decodeAncestors_insert btc chain
            (retargetInterval_pos btc network) decoded]
          exact
            inductionHypothesis (covers.insertAbove ordered raw) (by omega)
              (by omega) (by omega)
        · simp only [verdict]
          refine Holds.fails (holdCheckpoint_refuses contradicts)
            (fun _ inner emptied => ?_)
          rw [emptied]

theorem covers_of_acceptRows
    {chain after : HeaderMap Raw}
    {low high : Nat}
    (covers : chain.Covers low high)
    (ordered : low ≤ high)
    (accepted :
      acceptRows btc network checkpoint nowSecs chain (high + 1) raws =
        .ok after) :
    after.Covers low (high + raws.length) := by
  induction raws generalizing chain high with
  | nil =>
      cases accepted
      exact covers
  | cons raw rest inductionHypothesis =>
      rw [acceptRows] at accepted
      cases verdict :
          judgeRow btc network checkpoint nowSecs chain (high + 1) raw with
      | accepted =>
          rw [verdict] at accepted
          have later :=
            inductionHypothesis (covers.insertAbove ordered raw) (by omega)
              accepted
          rw [List.length_cons]
          rwa [Nat.add_assoc, Nat.add_comm 1] at later
      | invalid | refused =>
          rw [verdict] at accepted
          cases accepted

theorem appendBatchLocked_judged
    {chain : HeaderMap Raw}
    {low high : Nat}
    {raws : List Raw}
    (covers : chain.Covers low high)
    (ordered : low ≤ high)
    (bounded : high + raws.length ≤ u32Max) :
    Holds (Holding chain)
      (appendBatchLocked btc network checkpoint (fun _ => nowSecs)
        (high + 1) raws : Locked (HeaderBackend Raw) Raw Unit)
      (fun _ inner =>
        ∃ after,
          acceptRows btc network checkpoint nowSecs chain (high + 1) raws =
              .ok after ∧
            Holding after inner)
      (fun _ inner =>
        acceptRows btc network checkpoint nowSecs chain (high + 1) raws =
          .error inner.chain) := by
  apply Holds.bindGet
  rintro read ⟨-, rfl⟩
  have notEmpty : read.store.cache.isEmpty = false := by
    rw [Std.ExtTreeMap.isEmpty_eq_false_iff]
    exact covers.ne_empty ordered
  simp only [notEmpty, Bool.false_eq_true, ↓reduceIte]
  refine Holds.bind (appendRows_judged covers ordered rfl bounded)
    (fun _ => ?_)
  refine Holds.assume
    (show ∀ inner, _ →
      ∃ after,
        acceptRows btc network checkpoint nowSecs read.chain (high + 1)
          raws = .ok after from ?_) ?_
  · rintro inner ⟨after, accepted, _⟩
    exact ⟨after, accepted⟩
  rintro ⟨after, accepted⟩
  refine Holds.weaken (Holding after) ?_ ?_
  · rintro inner ⟨other, accepted', holding⟩
    rw [accepted] at accepted'
    cases accepted'
    exact holding
  refine Holds.move
    (flushRows_accepts (covers_of_acceptRows covers ordered accepted)
      (by omega))
    (fun _ _ impossible => impossible.elim) (fun _ => ?_)
  exact Holds.conseq (setValidationState_accepts after .valid)
    (fun _ holding => holding)
    (fun _ _ holding => ⟨after, accepted, holding⟩)
    (fun _ _ impossible => impossible.elim)

/-- A write either leaves a store that serves the accepted headers, or stops
with the chain the verdicts stop with. -/
theorem withWriter_judged
    {token : Nat}
    {body : Locked (HeaderBackend Raw) Raw Unit}
    {verdict : Except (HeaderMap Raw) (HeaderMap Raw)}
    (serves : Serves network checkpoint token chain store)
    (triple :
      Holds (Holding chain) body
        (fun _ inner => ∃ after, verdict = .ok after ∧ Holding after inner)
        (fun _ inner => verdict = .error inner.chain)) :
    (∃ after next,
        store.withWriter token body = (.ok (), next) ∧
          verdict = .ok after ∧
          Serves network checkpoint token after next) ∨
      ∃ reason next,
        store.withWriter token body = (.error reason, next) ∧
          verdict = .error next.chain := by
  have reached := triple store.inner serves.holding
  have current : ¬ store.writerToken ≠ token := not_not.mpr serves.token
  rw [HeaderStore.withWriter, if_neg current]
  cases outcome : body store.inner with
  | ok value inner =>
      rw [outcome] at reached
      obtain ⟨after, accepted, holding⟩ := reached
      exact
        .inl ⟨after, store.release inner, rfl, accepted, serves.network,
          serves.checkpoint, serves.token, serves.running, holding⟩
  | error reason inner =>
      rw [outcome] at reached
      exact .inr ⟨reason, store.release inner, rfl, reached⟩

theorem append_judged
    (serves : Serves network checkpoint token chain store)
    (covers : chain.Covers low high)
    (ordered : low ≤ high)
    (raw : Raw) :
    (∃ after next,
        store.append btc nowSecs token (high + 1) raw = (.ok (), next) ∧
          acceptRows btc network checkpoint nowSecs chain (high + 1) [raw] =
            .ok after ∧
          Serves network checkpoint token after next) ∨
      ∃ reason next,
        store.append btc nowSecs token (high + 1) raw =
            (.error reason, next) ∧
          acceptRows btc network checkpoint nowSecs chain (high + 1) [raw] =
            .error next.chain := by
  cases decoded : btc.deserialize raw with
  | none =>
      refine .inr ⟨_, store, by rw [HeaderStore.append, decoded], ?_⟩
      have stored : store.chain = chain := serves.holding.stores
      simp only [acceptRows, judgeRow, decoded, stored]
  | some incoming =>
      have called :
          store.append btc nowSecs token (high + 1) raw =
            store.withWriter token
              (appendLocked btc network checkpoint (high + 1) raw incoming
                nowSecs) := by
        rw [HeaderStore.append, decoded, serves.network, serves.checkpoint]
      rw [called]
      refine withWriter_judged serves ?_
      exact Holds.conseq
        (appendLocked_judged covers ordered decoded)
        (fun _ holding => holding)
        (fun _ _ reached => ⟨_, reached.1, reached.2⟩)
        (fun _ _ stopped => stopped)

theorem feedOne_chain
    (serves : Serves network checkpoint token chain store)
    (covers : chain.Covers low high)
    (ordered : low ≤ high)
    (raws : List Raw) :
    (feedOne btc nowSecs token (high + 1) raws store).chain =
      endOf
        (acceptRows btc network checkpoint nowSecs chain (high + 1) raws) := by
  induction raws generalizing chain high store with
  | nil => exact serves.holding.stores
  | cons raw rest inductionHypothesis =>
      have split :=
        @acceptRows_append _ btc network checkpoint nowSecs chain (high + 1)
          [raw] rest
      rw [List.singleton_append] at split
      rw [split, feedOne]
      rcases append_judged serves covers ordered raw with
        ⟨after, next, called, accepted, serves'⟩ |
          ⟨reason, next, called, stopped⟩
      · have covers' := covers_of_acceptRows covers ordered accepted
        rw [called, accepted]
        exact inductionHypothesis serves' covers' (by omega)
      · rw [called, stopped]
        rfl

theorem feedBatches_chain
    (serves : Serves network checkpoint token chain store)
    (covers : chain.Covers low high)
    (ordered : low ≤ high)
    {batches : List (List Raw)}
    (bounded : high + batches.flatten.length ≤ u32Max) :
    (feedBatches btc nowSecs token (high + 1) batches store).chain =
      endOf
        (acceptRows btc network checkpoint nowSecs chain (high + 1)
          batches.flatten) := by
  induction batches generalizing chain high store with
  | nil => exact serves.holding.stores
  | cons batch rest inductionHypothesis =>
      rw [List.flatten_cons, List.length_append] at bounded
      rw [List.flatten_cons, acceptRows_append, feedBatches]
      by_cases empty : batch = []
      · subst empty
        have called :
            store.appendBatch btc (fun _ => nowSecs) token (high + 1) [] =
              (.ok (), store) :=
          if_pos rfl
        rw [called]
        exact inductionHypothesis serves covers ordered (by omega)
      · have called :
            store.appendBatch btc (fun _ => nowSecs) token (high + 1) batch =
              store.withWriter token
                (appendBatchLocked btc network checkpoint (fun _ => nowSecs)
                  (high + 1) batch) := by
          rw [HeaderStore.appendBatch, if_neg empty, serves.network,
            serves.checkpoint]
        have judged :=
          @appendBatchLocked_judged _ btc network checkpoint nowSecs chain low
            high batch covers ordered (by omega)
        rcases withWriter_judged serves judged with
          ⟨after, next, returned, accepted, serves'⟩ |
            ⟨reason, next, returned, stopped⟩
        · have covers' := covers_of_acceptRows covers ordered accepted
          rw [called, returned, accepted]
          have later :=
            inductionHypothesis serves' covers' (by omega) (by omega)
          rw [show high + batch.length + 1 = high + 1 + batch.length by
            omega] at later
          exact later
        · rw [called, returned, stopped]
          rfl

end Locked

section Stacks

variable {Raw : Type}

theorem getElem?_stacked
    (chain : HeaderMap Raw)
    (height : Nat)
    (raws : List Raw)
    (query : Nat) :
    (stacked chain height raws)[query]? =
      if query < height then
        chain[query]?
      else
        (raws[query - height]?).or chain[query]? := by
  induction raws generalizing chain height with
  | nil => simp [stacked_nil]
  | cons raw rest inductionHypothesis =>
      rw [stacked_cons, inductionHypothesis, BTreeMap.getElem?_insert_eq]
      by_cases below : query < height
      · rw [if_pos (by omega), if_neg (by omega), if_pos below]
      by_cases here : height = query
      · subst here
        rw [if_pos (by omega), if_pos rfl, if_neg below, Nat.sub_self]
        rfl
      · rw [if_neg (by omega), if_neg here, if_neg below,
          show query - height = query - (height + 1) + 1 by omega,
          List.getElem?_cons_succ]

theorem covers_stacked
    {chain : HeaderMap Raw}
    {low high : Nat}
    (covers : chain.Covers low high)
    (ordered : low ≤ high)
    (raws : List Raw) :
    (stacked chain (high + 1) raws).Covers low (high + raws.length) := by
  induction raws generalizing chain high with
  | nil => exact covers
  | cons raw rest inductionHypothesis =>
      have later :=
        inductionHypothesis (covers.insertAbove ordered raw) (by omega)
      rw [stacked_cons, List.length_cons]
      rwa [show high + 1 + rest.length = high + (rest.length + 1) by
        omega] at later

end Stacks

section Reloads

variable {btc : Bitcoin Raw} {network : Network}
variable {checkpoint : Option Checkpoint} {nowSecs : Nat}

variable {low high : Nat} {raws : List Raw}

theorem reloads_of_acceptRows
    {chain after : HeaderMap Raw}
    (valid : Reloads btc network checkpoint nowSecs chain)
    (covers : chain.Covers low high)
    (ordered : low ≤ high)
    (accepted :
      acceptRows btc network checkpoint nowSecs chain (high + 1) raws =
        .ok after) :
    Reloads btc network checkpoint nowSecs after := by
  induction raws generalizing chain high with
  | nil =>
      cases accepted
      exact valid
  | cons raw rest inductionHypothesis =>
      rw [acceptRows] at accepted
      rcases @judgeRow_cases _ btc network checkpoint nowSecs chain (high + 1)
          raw with
        ⟨verdict, _⟩ | ⟨header, decoded, passed, ⟨verdict, held⟩ |
          ⟨verdict, _⟩⟩
      · rw [verdict] at accepted
        cases accepted
      · rw [verdict] at accepted
        have grown :
            Grow (writtenBefore btc network checkpoint nowSecs) chain
              (chain.insert (high + 1) raw) :=
          .extend covers ordered
            ⟨header, nowSecs, decoded, Nat.le_refl nowSecs, passed⟩ held
        refine inductionHypothesis ⟨?_, ?_⟩
          (covers.insertAbove ordered raw) (by omega) accepted
        · exact
            ChainOf.grow (writtenBefore btc network checkpoint nowSecs)
              replaysAt_downward replaysAt_implied valid.replays grown
        · intro height stored present
          rw [BTreeMap.getElem?_insert_eq] at present
          split at present
          · next same =>
              cases present
              rw [← same]
              exact held
          · exact valid.held height stored present
      · rw [verdict] at accepted
        cases accepted

theorem acceptRows_of_replays
    {whole chain : HeaderMap Raw}
    (ordered : low ≤ high)
    (same : ∀ below : Nat, below ≤ high → chain[below]? = whole[below]?)
    (rows :
      ∀ index raw, raws[index]? = some raw →
        whole[high + 1 + index]? = some raw)
    (replays :
      ∀ height raw, whole[height]? = some raw →
        RowReplays btc network nowSecs whole low height raw)
    (held : HoldsThroughout btc checkpoint whole) :
    ∃ after,
      acceptRows btc network checkpoint nowSecs chain (high + 1) raws =
        .ok after := by
  induction raws generalizing chain high with
  | nil => exact ⟨chain, rfl⟩
  | cons raw rest inductionHypothesis =>
      have stored : whole[high + 1]? = some raw := rows 0 raw rfl
      obtain ⟨header, decoded, passes⟩ := replays (high + 1) raw stored
      rw [replayRow, if_neg (by omega), if_pos (by omega)] at passes
      have window :
          decodeAncestors btc chain (high + 1)
              (retargetInterval btc network) =
            decodeAncestors btc whole (high + 1)
              (retargetInterval btc network) :=
        decodeAncestors_congr _ fun below under =>
          same below (by omega)
      have verdict :
          judgeRow btc network checkpoint nowSecs chain (high + 1) raw =
            .accepted := by
        simp [judgeRow, decoded, window, passes,
          held (high + 1) raw stored]
      simp only [acceptRows, verdict]
      refine inductionHypothesis (by omega) ?_ ?_
      · intro below under
        rw [BTreeMap.getElem?_insert_eq]
        split
        · next here =>
            rw [← here, stored]
        · exact same below (by omega)
      · intro index other listed
        have above := rows (index + 1) other (by simpa using listed)
        rw [show high + 1 + 1 + index = high + 1 + (index + 1) by omega]
        exact above

theorem withCheckpoint_chain
    (rows : HeaderMap Raw) :
    (HeaderStore.withCheckpoint btc nowSecs network checkpoint
        ({ rows := rows, faults := [] } : HeaderBackend Raw)).chain =
      if sanityCheck btc network checkpoint rows = .ok () ∧
          replayValidate btc network rows nowSecs = .ok () then
        rows
      else
        ∅ := by
  have loaded :
      (HeaderStore.load network checkpoint
          ({ rows := rows, faults := [] } : HeaderBackend Raw)).chain =
        rows :=
    rfl
  have synced :
      Synced
        (HeaderStore.load network checkpoint
          ({ rows := rows, faults := [] } : HeaderBackend Raw)).inner :=
    ⟨RamStore.coherent_open _, rfl⟩
  obtain ⟨after, cleared, emptied, -⟩ := clearInner_synced synced
  have gone :
      (HeaderStore.load network checkpoint
          ({ rows := rows, faults := [] } : HeaderBackend Raw)).clearStore.chain =
        ∅ := by
    rw [HeaderStore.clearStore, cleared]
    exact emptied
  unfold HeaderStore.withCheckpoint HeaderStore.startReplayValidation
  simp only [loaded]
  by_cases empty : rows.isEmpty = true
  · rw [if_pos empty]
    have nothing : rows = ∅ := Std.ExtTreeMap.isEmpty_iff.mp empty
    subst nothing
    simp only [ite_self]
    exact loaded
  rw [if_neg empty,
    show (HeaderStore.load network checkpoint
        ({ rows := rows, faults := [] } : HeaderBackend Raw)).network =
      network from rfl,
    show (HeaderStore.load network checkpoint
        ({ rows := rows, faults := [] } : HeaderBackend Raw)).checkpoint =
      checkpoint from rfl]
  cases sane : sanityCheck btc network checkpoint rows with
  | error cause =>
      rw [if_neg (by simp)]
      exact gone
  | ok value =>
      cases replayed : replayValidate btc network rows nowSecs with
      | error reason =>
          rw [if_neg (by simp)]
          exact gone
      | ok value =>
          rw [if_pos ⟨rfl, rfl⟩]
          exact loaded

/-- A reload of a stack keeps it exactly when its headers are accepted one
after the other. -/
theorem withCheckpoint_stacked
    {chain : HeaderMap Raw}
    (valid : Reloads btc network checkpoint nowSecs chain)
    (covers : chain.Covers low high)
    (ordered : low ≤ high)
    (raws : List Raw) :
    (HeaderStore.withCheckpoint btc nowSecs network checkpoint
        ({ rows := stacked chain (high + 1) raws, faults := [] } :
          HeaderBackend Raw)).chain =
      if acceptsAll btc network checkpoint nowSecs chain (high + 1) raws then
        stacked chain (high + 1) raws
      else
        ∅ := by
  rw [withCheckpoint_chain]
  have range := covers_stacked covers ordered raws
  by_cases accepted :
      acceptsAll btc network checkpoint nowSecs chain (high + 1) raws = true
  · obtain ⟨after, fed⟩ := acceptsAll_iff.mp accepted
    have reloads := reloads_of_acceptRows valid covers ordered fed
    rw [acceptRows_ok fed] at reloads
    rw [if_pos ⟨reloads.sanityCheck, reloads.replayValidate⟩,
      if_pos accepted]
  · rw [if_neg accepted, if_neg]
    rintro ⟨sane, replayed⟩
    refine accepted (acceptsAll_iff.mpr (acceptRows_of_replays ordered ?_ ?_
      ((replayValidate_eq_ok_iff range (by omega)).mp replayed) ?_))
    · intro below under
      rw [getElem?_stacked, if_pos (by omega)]
    · intro index raw listed
      rw [getElem?_stacked, if_neg (by omega),
        show high + 1 + index - (high + 1) = index by omega, listed,
        Option.some_or]
    · cases checkpoint with
      | none => exact fun _ _ _ => rfl
      | some pinned => exact holdsThroughout_of_sanityCheck sane

end Reloads

section Branches

variable {btc : Bitcoin Raw} {network : Network} {nowSecs : Nat}

theorem validateRows_ok_iff
    {combined chain buffer : HeaderMap Raw}
    {height : Nat}
    {raws : List Raw}
    (branch : HeaderBranch Raw)
    (same : ∀ below, below < height → combined[below]? = chain[below]?)
    (buffered :
      ∀ index raw, raws[index]? = some raw →
        buffer[height + index]? = some raw) :
    (∃ judged,
        HeaderBranch.validateRows btc network nowSecs buffer
            (List.range' height raws.length) combined branch =
          .ok judged) ↔
      acceptsAll btc network none nowSecs chain height raws = true := by
  rw [acceptsAll_iff]
  induction raws generalizing combined chain height branch with
  | nil =>
      exact iff_of_true ⟨branch, rfl⟩ ⟨chain, rfl⟩
  | cons raw rest inductionHypothesis =>
      have here : buffer[height]? = some raw := buffered 0 raw rfl
      rw [List.length_cons, List.range'_succ, HeaderBranch.validateRows,
        acceptRows]
      simp only [here]
      rcases @judgeRow_cases _ btc network none nowSecs chain height raw with
        ⟨verdict, absent | ⟨header, reason, decoded, failed⟩⟩ |
          ⟨header, decoded, passed, ⟨verdict, _⟩ | ⟨_, contradicts⟩⟩
      · simp [absent, verdict]
      · rw [← decodeAncestors_congr _ same] at failed
        simp [decoded, verdict, failed, bind, Except.bind]
      · rw [← decodeAncestors_congr _ same] at passed
        simp only [decoded, verdict, passed, bind, Except.bind]
        refine inductionHypothesis _ ?_ ?_
        · intro below under
          rw [BTreeMap.getElem?_insert_eq, BTreeMap.getElem?_insert_eq]
          split
          · rfl
          · exact same below (by omega)
        · intro index other listed
          have above := buffered (index + 1) other (by simpa using listed)
          rw [show height + 1 + index = height + (index + 1) by omega]
          exact above
      · exact absurd rfl contradicts

end Branches

section Prefixes

variable {btc : Bitcoin Raw} {network : Network}
variable {checkpoint : Option Checkpoint} {nowSecs : Nat}

/-- There is a longest accepted prefix, and the chain ends in it, unless the next
header contradicts the checkpoint. -/
theorem exists_longest_accepted
    (chain : HeaderMap Raw)
    (height : Nat)
    (raws : List Raw) :
    ∃ count, count ≤ raws.length ∧
      (∀ other, other ≤ raws.length →
        (acceptsAll btc network checkpoint nowSecs chain height
            (raws.take other) = true ↔
          other ≤ count)) ∧
      endOf
          (acceptRows btc network checkpoint nowSecs chain height raws) =
        keptRows btc network checkpoint nowSecs chain height raws count := by
  simp only [acceptsAll_iff]
  induction raws generalizing chain height with
  | nil =>
      refine ⟨0, Nat.le_refl 0, ?_, ?_⟩
      · intro other bounded
        exact iff_of_true ⟨chain, by simp [acceptRows]⟩ bounded
      · simp [acceptRows, endOf, keptRows, stacked_nil]
  | cons raw rest inductionHypothesis =>
      cases verdict :
          judgeRow btc network checkpoint nowSecs chain height raw with
      | accepted =>
          obtain ⟨count, bounded, accepts, ends⟩ :=
            inductionHypothesis (chain.insert height raw) (height + 1)
          refine ⟨count + 1, by simpa using bounded, ?_, ?_⟩
          · intro other fits
            cases other with
            | zero => exact iff_of_true ⟨chain, rfl⟩ (Nat.zero_le _)
            | succ other =>
                rw [List.take_succ_cons, acceptRows]
                simp only [verdict]
                rw [accepts other (by simpa using fits)]
                omega
          · rw [acceptRows]
            simp only [verdict, keptRows, List.getElem?_cons_succ,
              List.take_succ_cons, stacked_cons]
            rw [show height + (count + 1) = height + 1 + count by omega]
            exact ends
      | invalid | refused =>
          refine ⟨0, Nat.zero_le _, ?_, ?_⟩
          · intro other fits
            cases other with
            | zero => exact iff_of_true ⟨chain, rfl⟩ (Nat.le_refl 0)
            | succ other =>
                refine iff_of_false ?_ (by omega)
                rintro ⟨after, accepted⟩
                simp [acceptRows, verdict] at accepted
          · simp [acceptRows, verdict, endOf, keptRows, stacked_nil]

end Prefixes

/--
Over a contiguous valid chain the windows are one list.  Headers on top of it
are accepted up to the same one, and build the same chain, one at a time and in
any batches; a reload keeps exactly the accepted prefixes and empties the store
on a longer one; and a branch accepts what a chain without a checkpoint does.
-/
theorem feeds_agree
    (btc : Bitcoin Raw)
    (network : Network)
    (checkpoint : Option Checkpoint)
    (nowSecs token low high : Nat)
    (chain : HeaderMap Raw)
    (store : HeaderStore (HeaderBackend Raw) Raw)
    (raws : List Raw)
    (serves : Serves network checkpoint token chain store)
    (valid : Reloads btc network checkpoint nowSecs chain)
    (covers : chain.Covers low high)
    (ordered : low ≤ high)
    (bounded : high + raws.length ≤ u32Max) :
    let interval := retargetInterval btc network
    let accepts := acceptsAll btc network checkpoint nowSecs chain (high + 1)
    let stack := fun count => stacked chain (high + 1) (raws.take count)
    let kept :=
      keptRows btc network checkpoint nowSecs chain (high + 1) raws
    (decodeAncestors btc chain low interval = [] ∧
      (∀ start count, low ≤ start → start + count ≤ high + 1 →
        slidWindow btc chain interval start count =
          decodeAncestors btc chain (start + count) interval) ∧
      ∀ combined height,
        (∀ below, below < height → combined[below]? = chain[below]?) →
          decodeAncestors btc combined height interval =
            decodeAncestors btc chain height interval) ∧
    ∃ count, count ≤ raws.length ∧
      (∀ other, other ≤ raws.length →
        (accepts (raws.take other) = true ↔ other ≤ count)) ∧
      (feedOne btc nowSecs token (high + 1) raws store).chain = kept count ∧
      (∀ batches, batches.flatten = raws →
        (feedBatches btc nowSecs token (high + 1) batches store).chain =
          kept count) ∧
      (∀ other, other ≤ raws.length →
        (HeaderStore.withCheckpoint btc nowSecs network checkpoint
            ({ rows := stack other, faults := [] } :
              HeaderBackend Raw)).chain =
          if other ≤ count then stack other else ∅) ∧
      ∀ other (active buffer : HeaderMap Raw),
        0 < other → other ≤ raws.length →
        (∀ below, below ≤ high → active[below]? = chain[below]?) →
        (∀ index raw, (raws.take other)[index]? = some raw →
          buffer[high + 1 + index]? = some raw) →
        ((∃ branch,
            HeaderBranch.validate btc network active high (high + other)
              buffer nowSecs = .ok branch) ↔
          acceptsAll btc network none nowSecs chain (high + 1)
            (raws.take other) = true) := by
  intro interval accepts stack kept
  have windows :
      ∀ start count, low ≤ start → start + count ≤ high + 1 →
        slidWindow btc chain interval start count =
          decodeAncestors btc chain (start + count) interval := by
    intro start count above below
    refine slidWindow_eq (retargetInterval_pos btc network) ?_
    intro height fromStart under
    have range := valid.replays.range covers ordered
    obtain ⟨raw, present⟩ :=
      BTreeMap.mem_iff_getElem?.mp ((covers height).mpr ⟨by omega, by omega⟩)
    obtain ⟨header, decoded, _⟩ := range.rows height raw present
    exact ⟨header, by rw [headerAt, present]; exact decoded⟩
  refine
    ⟨⟨decodeAncestors_floor btc covers, windows,
      fun combined height same => decodeAncestors_congr _ same⟩, ?_⟩
  obtain ⟨count, fits, prefixes, ends⟩ :=
    @exists_longest_accepted _ btc network checkpoint nowSecs chain (high + 1)
      raws
  refine ⟨count, fits, prefixes, ?_, ?_, ?_, ?_⟩
  · rw [feedOne_chain serves covers ordered]
    exact ends
  · rintro batches rfl
    rw [feedBatches_chain serves covers ordered bounded]
    exact ends
  · intro other inside
    rw [withCheckpoint_stacked valid covers ordered]
    have here := prefixes other inside
    by_cases within : other ≤ count
    · rw [if_pos within, if_pos (here.mpr within)]
    · rw [if_neg within, if_neg (fun accepted => within (here.mp accepted))]
  · intro other active buffer positive inside same buffered
    have first : saturatingSucc high = high + 1 := by
      rw [saturatingSucc]
      omega
    have length : (raws.take other).length = other := by
      rw [List.length_take]
      omega
    rw [HeaderBranch.validate, first,
      show high + other + 1 - (high + 1) = (raws.take other).length by
        omega]
    refine validateRows_ok_iff _ ?_ buffered
    intro below under
    rw [BTreeMap.getElem?_retain, same below (by omega)]
    cases chain[below]? with
    | none => rfl
    | some raw => simp [Option.filter, show below ≤ high by omega]

/-- A chain that holds one block. -/
def singleChain : HeaderMap Header :=
  (∅ : HeaderMap Header).insert 0 (datedHeader id 0)

def singleStore : HeaderStore (HeaderBackend Header) Header :=
  HeaderStore.load .regtest none { rows := singleChain, faults := [] }

theorem serves_singleStore :
    Serves .regtest none 0 singleChain singleStore :=
  ⟨rfl, rfl, rfl, rfl, ⟨⟨RamStore.coherent_open _, rfl⟩, rfl⟩⟩

theorem reloads_singleChain :
    Reloads Bitcoin.sample .regtest none 1000 singleChain := by
  refine ⟨.inr ⟨0, 0, Nat.le_refl 0, BTreeMap.covers_singleton 0 _, rfl, ?_⟩,
    fun _ _ _ => rfl⟩
  intro height raw present
  rw [singleChain, BTreeMap.getElem?_insert_eq] at present
  split at present
  · next same =>
      cases present
      subst same
      exact ⟨datedHeader id 0, rfl, by unfold replaysAt; decide +kernel⟩
  · simp at present

/-- Two blocks on top of one. -/
theorem feeds_agree_two_blocks :
    let raws := [datedHeader id 1, datedHeader id 2]
    ∃ count, count ≤ 2 ∧
      (feedOne Bitcoin.sample 1000 0 1 raws singleStore).chain =
        keptRows Bitcoin.sample .regtest none 1000 singleChain 1 raws count ∧
      (feedBatches Bitcoin.sample 1000 0 1 [raws] singleStore).chain =
        keptRows Bitcoin.sample .regtest none 1000 singleChain 1 raws
          count := by
  intro raws
  obtain ⟨-, count, fits, -, single, batches, -⟩ :=
    feeds_agree Bitcoin.sample .regtest none 1000 0 0 0 singleChain
      singleStore raws serves_singleStore reloads_singleChain
      (BTreeMap.covers_singleton 0 _) (Nat.le_refl 0) (by decide)
  exact ⟨count, fits, single, batches [raws] rfl⟩

/-- A header that does not link is refused one at a time, and the chain below it
stays; a reload of the chain with it empties the store. -/
theorem unlinked_reload_empties :
    let unlinked := datedHeader id 3
    Reloads Bitcoin.sample .regtest none 1000 singleChain ∧
      (feedOne Bitcoin.sample 1000 0 1 [unlinked] singleStore).chain.size =
        1 ∧
      (HeaderStore.withCheckpoint Bitcoin.sample 1000 .regtest none
          ({ rows := stacked singleChain 1 [unlinked], faults := [] } :
            HeaderBackend Header)).chain.size =
        0 :=
  ⟨reloads_singleChain, by decide +kernel, by decide +kernel⟩

end Bwk
