import Bwk.CoinUsage

namespace Bwk

/-!
# A mirror of the unspent coins

What `generate` tells after its first run is the difference of two coin maps.
A consumer that adds what is received and removes what is spent keeps the
unspent outpoints, unless a coin that was spent comes back unspent.
-/

def Coin.IsSpent (coin : Coin) : Prop :=
  coin.status = .spent

def unspentOutpoints (coinMap : BTreeMap OutPoint Coin) :
    BTreeSet OutPoint :=
  Std.ExtTreeSet.ofList
    ((coinMap.toList.filter (fun row => row.2.status ≠ .spent)).map Prod.fst)

def mirrorEvent
    (mirror : BTreeSet OutPoint) : CoinEvent → BTreeSet OutPoint
  | .coinReceived outpoint _ _ => mirror.insert outpoint
  | .coinSpent outpoint => mirror.erase outpoint
  | .coinUpdate => mirror

/-- What a consumer has after some events. -/
def replayEvents
    (mirror : BTreeSet OutPoint)
    (events : List CoinEvent) : BTreeSet OutPoint :=
  events.foldl mirrorEvent mirror

theorem mem_unspentOutpoints
    {coinMap : BTreeMap OutPoint Coin}
    {outpoint : OutPoint} :
    outpoint ∈ unspentOutpoints coinMap ↔
      ∃ coin, coinMap[outpoint]? = some coin ∧ ¬ coin.IsSpent := by
  rw [unspentOutpoints, Std.ExtTreeSet.mem_ofList, List.contains_iff_mem]
  simp only [List.mem_map, List.mem_filter, decide_eq_true_eq, Prod.exists,
    Std.ExtTreeMap.mem_toList_iff_getElem?_eq_some, Coin.IsSpent]
  constructor
  · rintro ⟨found, coin, ⟨present, unspent⟩, rfl⟩
    exact ⟨coin, present, unspent⟩
  · rintro ⟨coin, present, unspent⟩
    exact ⟨outpoint, coin, ⟨present, unspent⟩, rfl⟩

namespace CoinStore

section Difference

variable {previous current : BTreeMap OutPoint Coin}

def currentEvents
    (previous : BTreeMap OutPoint Coin)
    (row : OutPoint × Coin) : List CoinEvent :=
  let isSpent (coin : Coin) : Bool := coin.status = .spent
  (if previous[row.1]?.isNone then
      [.coinReceived row.1 row.2.txout.value row.2.height]
    else
      []) ++
    (if isSpent row.2 ∧ ¬ previous[row.1]?.any isSpent then
      [.coinSpent row.1]
    else
      [])

def previousEvent
    (current : BTreeMap OutPoint Coin)
    (row : OutPoint × Coin) : Option CoinEvent :=
  let isSpent (coin : Coin) : Bool := coin.status = .spent
  if row.1 ∉ current ∧ ¬ isSpent row.2 then
    some (.coinSpent row.1)
  else
    none

theorem coinEvents_eq :
    coinEvents previous current =
      current.toList.flatMap (currentEvents previous) ++
        previous.toList.filterMap (previousEvent current) :=
  rfl

def WasSpent
    (coinMap : BTreeMap OutPoint Coin)
    (outpoint : OutPoint) : Prop :=
  ∃ coin, coinMap[outpoint]? = some coin ∧ coin.IsSpent

variable (mirror : BTreeSet OutPoint) {outpoint : OutPoint}
variable (row : OutPoint × Coin) (query : OutPoint)

theorem mem_replay_currentEvents :
    query ∈ replayEvents mirror (currentEvents previous row) ↔
      if row.1 = query then
        (previous[query]? = none ∨ query ∈ mirror) ∧
          (row.2.IsSpent → WasSpent previous query)
      else
        query ∈ mirror := by
  obtain ⟨outpoint, coin⟩ := row
  unfold replayEvents currentEvents WasSpent Coin.IsSpent
  by_cases here : outpoint = query
  · subst here
    cases before : previous[outpoint]? with
    | none =>
        by_cases spent : coin.status = .spent <;>
          simp [mirrorEvent, spent]
    | some known =>
        by_cases spent : coin.status = .spent <;>
          by_cases knownSpent : known.status = .spent <;>
            simp [mirrorEvent, spent, knownSpent]
  · cases before : previous[outpoint]? with
    | none =>
        by_cases spent : coin.status = .spent <;>
          simp [mirrorEvent, spent, here]
    | some known =>
        by_cases spent : coin.status = .spent <;>
          by_cases knownSpent : known.status = .spent <;>
            simp [mirrorEvent, spent, knownSpent, here]

theorem mem_replay_previousEvent :
    query ∈
        (match previousEvent current row with
        | some event => mirrorEvent mirror event
        | none => mirror) ↔
      query ∈ mirror ∧
        (row.1 = query → query ∈ current ∨ row.2.IsSpent) := by
  obtain ⟨outpoint, coin⟩ := row
  unfold previousEvent Coin.IsSpent
  by_cases gone : outpoint ∉ current ∧ ¬ coin.status = .spent
  · by_cases here : outpoint = query
    · subst here
      simp [mirrorEvent, gone.1, gone.2]
    · simp [mirrorEvent, gone.1, gone.2, here]
  · rw [not_and_or, not_not, not_not] at gone
    rcases gone with stays | spent
    · simp only [stays, not_true_eq_false, false_and, ↓reduceIte]
      refine ⟨fun listed => ⟨listed, fun here => .inl (here ▸ stays)⟩, ?_⟩
      exact fun both => both.1
    · simp [spent]

theorem mem_replay_current :
    query ∈ replayEvents mirror
        (current.toList.flatMap (currentEvents previous)) ↔
      match current[query]? with
      | some coin =>
          (previous[query]? = none ∨ query ∈ mirror) ∧
            (coin.IsSpent → WasSpent previous query)
      | none => query ∈ mirror := by
  have looked :=
    BTreeMap.look_foldl_toList current
      (fun mirror row => replayEvents mirror (currentEvents previous row))
      (fun mirror query => query ∈ mirror)
      (fun query coin known =>
        (previous[query]? = none ∨ known) ∧
          (coin.IsSpent → WasSpent previous query))
      (fun mirror outpoint coin _ =>
        propext ((mem_replay_currentEvents mirror _ outpoint).trans
          (by rw [if_pos rfl])))
      (fun mirror outpoint coin query _ other =>
        propext ((mem_replay_currentEvents mirror _ query).trans
          (by rw [if_neg other])))
      mirror query
  have shape :
      replayEvents mirror
          (current.toList.flatMap (currentEvents previous)) =
        current.toList.foldl
          (fun mirror row =>
            replayEvents mirror (currentEvents previous row)) mirror :=
    List.foldl_flatMap
  rw [shape, iff_iff_eq]
  refine looked.trans ?_
  cases current[query]? <;> rfl

theorem mem_replay_previous :
    query ∈ replayEvents mirror
        (previous.toList.filterMap (previousEvent current)) ↔
      query ∈ mirror ∧
        ∀ coin, previous[query]? = some coin →
          query ∈ current ∨ coin.IsSpent := by
  have looked :=
    BTreeMap.look_foldl_toList previous
      (fun mirror row =>
        match previousEvent current row with
        | some event => mirrorEvent mirror event
        | none => mirror)
      (fun mirror query => query ∈ mirror)
      (fun query coin known => known ∧ (query ∈ current ∨ coin.IsSpent))
      (fun mirror outpoint coin _ =>
        propext ((mem_replay_previousEvent mirror _ outpoint).trans
          (by simp)))
      (fun mirror outpoint coin query _ other =>
        propext ((mem_replay_previousEvent mirror _ query).trans
          (by simp [other])))
      mirror query
  have shape :
      replayEvents mirror
          (previous.toList.filterMap (previousEvent current)) =
        previous.toList.foldl
          (fun mirror row =>
            match previousEvent current row with
            | some event => mirrorEvent mirror event
            | none => mirror) mirror := by
    rw [replayEvents, List.foldl_filterMap]
    congr 1
    funext mirror row
    cases previousEvent current row <;> rfl
  rw [shape, iff_iff_eq]
  refine looked.trans (propext ?_)
  cases previous[query]? <;> simp

/-- No coin comes back unspent. -/
def NoneReturns (previous current : BTreeMap OutPoint Coin) : Prop :=
  ∀ (outpoint : OutPoint) (before now : Coin),
    previous[outpoint]? = some before → current[outpoint]? = some now →
      before.IsSpent → now.IsSpent

theorem replay_coinEvents
    (stays : NoneReturns previous current) :
    replayEvents (unspentOutpoints previous)
        (coinEvents previous current) =
      unspentOutpoints current := by
  apply Std.ExtTreeSet.ext_mem
  intro query
  rw [coinEvents_eq, replayEvents, List.foldl_append]
  refine (mem_replay_previous _ query).trans ?_
  refine (and_congr_left' (mem_replay_current _ query)).trans ?_
  rw [mem_unspentOutpoints, mem_unspentOutpoints, WasSpent,
    BTreeMap.mem_iff_getElem?]
  have stays := stays query
  cases before : previous[query]? with
  | none =>
      cases now : current[query]? <;> simp
  | some known =>
      rw [before] at stays
      cases now : current[query]? with
      | none =>
          by_cases spent : known.IsSpent <;> simp [spent]
      | some coin =>
          have kept := stays known coin rfl now
          by_cases spent : known.IsSpent
          · simp [spent, kept spent]
          · by_cases nowSpent : coin.IsSpent <;> simp [spent, nowSpent]

theorem received_not_known
    {amount : Nat}
    {height : Option Nat}
    (told :
      .coinReceived outpoint amount height ∈ coinEvents previous current) :
    outpoint ∉ previous := by
  rw [coinEvents_eq, List.mem_append] at told
  rcases told with ofCurrent | ofPrevious
  · obtain ⟨row, -, told⟩ := List.mem_flatMap.mp ofCurrent
    unfold currentEvents at told
    cases before : previous[row.1]? with
    | none =>
        rw [before] at told
        have here : outpoint = row.1 := by
          rcases List.mem_append.mp told with received | spent
          · simp only [Option.isNone_none, ↓reduceIte,
              List.mem_singleton, CoinEvent.coinReceived.injEq] at received
            exact received.1
          · split at spent <;> simp at spent
        rw [here]
        exact BTreeMap.not_mem_iff_getElem?.mpr before
    | some known =>
        rw [before] at told
        rcases List.mem_append.mp told with received | spent
        · simp at received
        · split at spent <;> simp at spent
  · obtain ⟨row, -, told⟩ := List.mem_filterMap.mp ofPrevious
    unfold previousEvent at told
    dsimp only at told
    split at told
    · cases told
    · cases told

theorem spent_not_spent
    (told : .coinSpent outpoint ∈ coinEvents previous current) :
    ¬ WasSpent previous outpoint := by
  rintro ⟨known, before, spent⟩
  rw [coinEvents_eq, List.mem_append] at told
  rcases told with ofCurrent | ofPrevious
  · obtain ⟨row, -, told⟩ := List.mem_flatMap.mp ofCurrent
    unfold currentEvents at told
    rcases List.mem_append.mp told with received | turned
    · split at received <;> simp at received
    · dsimp only at turned
      split at turned
      · rename_i turns
        rw [List.mem_singleton, CoinEvent.coinSpent.injEq] at turned
        rw [← turned, before] at turns
        exact turns.2 (by simpa [Coin.IsSpent] using spent)
      · cases turned
  · obtain ⟨row, member, told⟩ := List.mem_filterMap.mp ofPrevious
    unfold previousEvent at told
    dsimp only at told
    split at told
    · rename_i gone
      cases told
      have present :=
        Std.ExtTreeMap.mem_toList_iff_getElem?_eq_some.mp member
      rw [before] at present
      cases present
      exact gone.2 (by simpa [Coin.IsSpent] using spent)
    · cases told

end Difference

variable {Backend : Type} [PersistenceBackend Backend Txid TxEntry]
variable {crate : TxCrate} {coins : CoinStore Backend}

def newEvents
    (crate : TxCrate)
    (coins : CoinStore Backend)
    (steps : List StoreStep) : List CoinEvent :=
  (coins.storeRun crate steps).events.drop coins.events.length

theorem generated_storeRun
    (generated : coins.generated = true)
    (steps : List StoreStep) :
    (coins.storeRun crate steps).generated = true := by
  induction steps using List.reverseRecOn with
  | nil =>
      exact generated
  | append_singleton earlier next inductionHypothesis =>
      rw [storeRun_concat]
      cases next with
      | mutate mutation =>
          exact (generated_mutate mutation).trans inductionHypothesis
      | generate =>
          rfl

theorem events_storeRun_concat
    (generated : coins.generated = true)
    (steps : List StoreStep)
    (next : StoreStep) :
    (coins.storeRun crate (steps ++ [next])).events =
      (coins.storeRun crate steps).events ++
        match next with
        | .mutate _ => []
        | .generate =>
            coinEvents (coins.storeRun crate steps).store
                (coins.storeRun crate (steps ++ [.generate])).store ++
              [.coinUpdate] := by
  cases next with
  | mutate mutation =>
      rw [storeRun_concat, storeStep, events_mutate, List.append_nil]
  | generate =>
      rw [storeRun_concat]
      have told := @generated_storeRun _ _ crate _ generated steps
      have shape :
          ((coins.storeRun crate steps).generate crate).events =
            (coins.storeRun crate steps).events ++
              (if (coins.storeRun crate steps).generated then
                coinEvents (coins.storeRun crate steps).store
                  ((coins.storeRun crate steps).coinMap crate)
              else
                []) ++ [.coinUpdate] :=
        rfl
      rw [storeStep, shape, if_pos told, List.append_assoc]
      rfl

theorem newEvents_concat
    (generated : coins.generated = true)
    (steps : List StoreStep)
    (next : StoreStep) :
    coins.newEvents crate (steps ++ [next]) =
      coins.newEvents crate steps ++
        match next with
        | .mutate _ => []
        | .generate =>
            coinEvents (coins.storeRun crate steps).store
                (coins.storeRun crate (steps ++ [.generate])).store ++
              [.coinUpdate] := by
  have longer : coins.events.length ≤
      (coins.storeRun crate steps).events.length := by
    induction steps using List.reverseRecOn with
    | nil =>
        exact Nat.le_refl _
    | append_singleton earlier last inductionHypothesis =>
        rw [events_storeRun_concat generated, List.length_append]
        exact Nat.le_add_right_of_le inductionHypothesis
  rw [newEvents, events_storeRun_concat generated,
    List.drop_append_of_le_length longer]
  rfl

/-- In each generation of the run no spent coin comes back unspent. -/
def NeverReturns
    (crate : TxCrate)
    (coins : CoinStore Backend)
    (steps : List StoreStep) : Prop :=
  ∀ earlier later, steps = earlier ++ .generate :: later →
    NoneReturns (coins.storeRun crate earlier).store
      (coins.storeRun crate (earlier ++ [.generate])).store

def TellsNews
    (crate : TxCrate)
    (coins : CoinStore Backend)
    (steps : List StoreStep) : Prop :=
  ∀ earlier later, steps = earlier ++ .generate :: later →
    ∃ told,
      (coins.storeRun crate (earlier ++ [.generate])).events =
          (coins.storeRun crate earlier).events ++ told ∧
        (∀ outpoint amount height,
          .coinReceived outpoint amount height ∈ told →
            outpoint ∉ (coins.storeRun crate earlier).store) ∧
        ∀ outpoint, .coinSpent outpoint ∈ told →
          ¬ WasSpent (coins.storeRun crate earlier).store outpoint

/--
Replaying the events on the unspent outpoints of the first generation gives the
unspent outpoints at any later time, as long as no spent coin comes back
unspent; and each generation tells only what was not so before.
-/
theorem events_mirror_coins
    (crate : TxCrate)
    (coins : CoinStore Backend)
    (steps : List StoreStep) :
    ((coins.generate crate).NeverReturns crate steps →
      replayEvents (unspentOutpoints (coins.generate crate).store)
          ((coins.generate crate).newEvents crate steps) =
        unspentOutpoints
          ((coins.generate crate).storeRun crate steps).store) ∧
      (coins.generate crate).TellsNews crate steps := by
  have generated : (coins.generate crate).generated = true := rfl
  refine ⟨?_, ?_⟩
  · intro stays
    induction steps using List.reverseRecOn with
    | nil =>
        have none : (coins.generate crate).newEvents crate [] = [] :=
          List.drop_length
        rw [none]
        rfl
    | append_singleton earlier next inductionHypothesis =>
        have before := inductionHypothesis (fun first later split =>
          stays first (later ++ [next]) (by simp [split]))
        rw [newEvents_concat generated, replayEvents, List.foldl_append]
        rw [replayEvents] at before
        rw [before]
        cases next with
        | mutate mutation =>
            have same :
                ((coins.generate crate).storeRun crate
                    (earlier ++ [.mutate mutation])).store =
                  ((coins.generate crate).storeRun crate earlier).store := by
              rw [storeRun_concat, storeStep, store_mutate]
            rw [same]
            rfl
        | generate =>
            have replayed :=
              replay_coinEvents (stays earlier [] rfl)
            rw [replayEvents] at replayed
            dsimp only
            rw [List.foldl_append, replayed]
            rfl
  · intro earlier later _
    refine ⟨_, events_storeRun_concat generated earlier .generate, ?_, ?_⟩
    · intro outpoint amount height told
      rcases List.mem_append.mp told with received | update
      · exact received_not_known received
      · simp at update
    · intro outpoint told
      rcases List.mem_append.mp told with spent | update
      · exact spent_not_spent spent
      · simp at update

/-- The first payment of a scan is mirrored. -/
theorem events_mirror_first_payment :
    replayEvents
        (unspentOutpoints (unusedCoins.generate TxCrate.sample).store)
        ((unusedCoins.generate TxCrate.sample).newEvents TxCrate.sample
          paidOnce) =
      unspentOutpoints
        ((unusedCoins.generate TxCrate.sample).storeRun TxCrate.sample
          paidOnce).store := by
  refine (events_mirror_coins TxCrate.sample unusedCoins paidOnce).1 ?_
  intro earlier later split outpoint before now known
  match earlier, split with
  | [], split =>
      cases split
  | [_], split =>
      cases split
      -- Nothing was known when the payment came.
      have empty : (unusedCoins.generate TxCrate.sample).store = ∅ := rfl
      rw [show
        (storeRun TxCrate.sample (unusedCoins.generate TxCrate.sample)
          [.mutate (.addTx ⟨2, 1, [], [⟨5, 0⟩]⟩)]).store = ∅ from empty]
        at known
      simp at known
  | _ :: _ :: rest, split =>
      simp [paidOnce] at split

example :
    (unspentOutpoints
      ((unusedCoins.generate TxCrate.sample).storeRun TxCrate.sample
        paidOnce).store).toList =
      [⟨1, 0⟩] := by
  decide +kernel

end CoinStore

end Bwk
