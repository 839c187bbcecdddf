import Bwk.HeaderInvariant

namespace Bwk

/-!
# Reorganisations

What `resolve_reorg` may do to a stored chain once the walk back has found a
fork: nothing, refuse the chain over the checkpoint, or switch to a branch that
was judged on top of the kept prefix and carries strictly more work than what
it replaces.  The branch is assembled from several answers that may overwrite
each other, so everything is said about the headers that end up stored.
-/

def totalWork (btc : Bitcoin Raw) (chain : HeaderMap Raw) :
    Except ValidatorError Work :=
  HeaderBranch.sumWork btc (chain.toList.map Prod.snd)

section Work

variable {btc : Bitcoin Raw}

theorem sumWork_append
    {first second : List Raw}
    {firstWork secondWork : Work}
    (firstSum : HeaderBranch.sumWork btc first = .ok firstWork)
    (secondSum : HeaderBranch.sumWork btc second = .ok secondWork) :
    HeaderBranch.sumWork btc (first ++ second) =
      .ok (firstWork + secondWork) := by
  induction first generalizing firstWork with
  | nil =>
      simp only [HeaderBranch.sumWork, Except.ok.injEq] at firstSum
      subst firstSum
      rw [List.nil_append, secondSum, Nat.zero_add]
  | cons raw rest inductionHypothesis =>
      cases decoded : btc.deserialize raw with
      | none =>
          simp [HeaderBranch.sumWork, decoded] at firstSum
      | some header =>
          cases restSum : HeaderBranch.sumWork btc rest with
          | error reason =>
              simp [HeaderBranch.sumWork, decoded, restSum, bind,
                Except.bind] at firstSum
          | ok restWork =>
              simp only [HeaderBranch.sumWork, decoded, restSum, bind,
                Except.bind, Except.ok.injEq] at firstSum
              simp only [List.cons_append, HeaderBranch.sumWork, decoded,
                inductionHypothesis restSum, bind, Except.bind,
                ← firstSum, Nat.add_assoc]

theorem exists_sumWork
    (btc : Bitcoin Raw)
    (raws : List Raw)
    (decodes : ∀ raw ∈ raws, ∃ header, btc.deserialize raw = some header) :
    ∃ work, HeaderBranch.sumWork btc raws = .ok work := by
  induction raws with
  | nil =>
      exact ⟨0, rfl⟩
  | cons raw rest inductionHypothesis =>
      obtain ⟨header, decoded⟩ := decodes raw (by simp)
      obtain ⟨work, summed⟩ :=
        inductionHypothesis (fun other member =>
          decodes other (by simp [member]))
      exact ⟨btc.work header + work, by
        simp [HeaderBranch.sumWork, decoded, summed, bind, Except.bind]⟩

private theorem rows_split
    {rows : List (Nat × Raw)}
    (sorted : rows.Pairwise (fun first second => first.1 < second.1))
    (forkHeight : Nat) :
    rows =
      rows.filter (fun row => row.1 ≤ forkHeight) ++
        rows.filter (fun row => forkHeight + 1 ≤ row.1) := by
  induction rows with
  | nil =>
      rfl
  | cons row rest inductionHypothesis =>
      obtain ⟨before, restSorted⟩ := List.pairwise_cons.mp sorted
      by_cases kept : row.1 ≤ forkHeight
      · have notAbove : ¬ forkHeight + 1 ≤ row.1 := by omega
        simp only [List.filter_cons, kept, decide_true, ↓reduceIte,
          notAbove, decide_false, Bool.false_eq_true, List.cons_append]
        rw [← inductionHypothesis restSorted]
      · have noneKept :
            rest.filter (fun other => other.1 ≤ forkHeight) = [] := by
          rw [List.filter_eq_nil_iff]
          intro other member
          have later := before other member
          simp only [decide_eq_true_eq]
          omega
        have above : forkHeight + 1 ≤ row.1 := by omega
        have split := inductionHypothesis restSorted
        rw [noneKept, List.nil_append] at split
        simp only [List.filter_cons, kept, decide_false,
          Bool.false_eq_true, ↓reduceIte, noneKept, List.nil_append, above,
          decide_true]
        rw [← split]

theorem toList_split (chain : HeaderMap Raw) (forkHeight : Nat) :
    chain.toList =
      (chain.retain (fun height _ => height ≤ forkHeight)).toList ++
        chain.toList.filter (fun row => forkHeight + 1 ≤ row.1) := by
  have sorted :
      chain.toList.Pairwise (fun first second => first.1 < second.1) :=
    Std.ExtTreeMap.ordered_keys_toList.imp
      (fun ordered => Nat.compare_eq_lt.mp ordered)
  rw [BTreeMap.retain, Std.ExtTreeMap.toList_filter]
  exact rows_split sorted forkHeight

end Work

/--
A chain that switched at `forkHeight` to a branch ending at `incomingHeight`.
-/
structure Switched
    (btc : Bitcoin Raw)
    (network : Network)
    (chain after : HeaderMap Raw)
    (forkHeight incomingHeight : Nat)
    (buffer : HeaderMap Raw)
    (nowSecs : Nat)
    (branch : HeaderBranch Raw) : Prop where
  /-- The prefix is kept. -/
  kept :
    ∀ height : Nat, height ≤ forkHeight → after[height]? = chain[height]?
  /-- The suffix is the branch. -/
  suffix :
    ∀ height : Nat, forkHeight < height →
      after[height]? = branch.headers[height]?
  /-- The branch fills the heights up to the incoming one. -/
  heights :
    ∀ height : Nat,
      height ∈ branch.headers ↔
        forkHeight < height ∧ height ≤ incomingHeight
  /-- The branch was judged on top of the prefix. -/
  validated :
    HeaderBranch.validate btc network chain forkHeight incomingHeight buffer
      nowSecs = .ok branch
  /-- The branch carries more work than the suffix it replaces. -/
  stronger :
    ∃ replacedWork,
      HeaderBranch.sumWork btc
          (HeaderBranch.activeSuffix chain forkHeight) =
        .ok replacedWork ∧
      HeaderBranch.sumWork btc
          (HeaderBranch.activeSuffix after forkHeight) =
        .ok branch.chainwork ∧
      replacedWork < branch.chainwork
  /-- The whole chain gained work. -/
  gained :
    ∃ before now,
      totalWork btc chain = .ok before ∧ totalWork btc after = .ok now ∧
        before < now

/-- What a reorganisation at `forkHeight` may leave. -/
inductive ReorgOutcome
    (btc : Bitcoin Raw)
    (network : Network)
    (checkpoint : Option Checkpoint)
    (chain after : HeaderMap Raw)
    (forkHeight incomingHeight : Nat) : Prop where
  | unchanged (same : after = chain)
  | refused
      (emptied : after = ∅)
      {buffer : HeaderMap Raw}
      {nowSecs : Nat}
      {branch : HeaderBranch Raw}
      (validated :
        HeaderBranch.validate btc network chain forkHeight incomingHeight
          buffer nowSecs = .ok branch)
      {height : Nat}
      {raw : Raw}
      (member : branch.headers[height]? = some raw)
      (contradicts : holdsCheckpoint btc checkpoint height raw = false)
  | switched
      {buffer : HeaderMap Raw}
      {nowSecs : Nat}
      {branch : HeaderBranch Raw}
      (result :
        Switched btc network chain after forkHeight incomingHeight buffer
          nowSecs branch)

section Switching

variable {σ Backend Raw : Type} [PersistenceBackend Backend Nat Raw]
variable {btc : Bitcoin Raw} {env : Env σ Raw} {token : Nat}

theorem switched_of_replaced
    {network : Network}
    {chain buffer : HeaderMap Raw}
    {forkHeight incomingHeight nowSecs : Nat}
    {branch : HeaderBranch Raw}
    (decodes :
      ∀ (height : Nat) raw, chain[height]? = some raw →
        ∃ header, btc.deserialize raw = some header)
    (inRange : forkHeight < u32Max)
    (validated :
      HeaderBranch.validate btc network chain forkHeight incomingHeight
        buffer nowSecs = .ok branch)
    (compared :
      branch.hasMoreWorkThanActive btc chain forkHeight = .ok true) :
    Switched btc network chain (replaced chain forkHeight branch.headers)
      forkHeight incomingHeight buffer nowSecs branch := by
  have first : saturatingSucc forkHeight = forkHeight + 1 := by
    simp only [saturatingSucc]
    omega
  obtain ⟨raws, counted, rows, -, summed⟩ :=
    validate_ok (anyServer btc network none) trivial inRange
      validated
  have heightsOf :
      (runRows (forkHeight + 1) raws).map Prod.fst =
        List.range' (forkHeight + 1) raws.length :=
    List.map_fst_zip (by simp)
  have heights :
      ∀ height : Nat,
        height ∈ branch.headers ↔
          forkHeight < height ∧ height ≤ incomingHeight := by
    intro height
    rw [← Std.ExtTreeMap.mem_keys,
      ← Std.ExtTreeMap.map_fst_toList_eq_keys, rows, heightsOf,
      List.mem_range'_1]
    omega
  have lookup :
      ∀ height : Nat,
        (replaced chain forkHeight branch.headers)[height]? =
          if height ∈ branch.headers then branch.headers[height]?
          else (chain.retain (fun height _ => height ≤ forkHeight))[height]?
      := by
    intro height
    rw [replaced, BTreeMap.getElem?_insertAll_of_source _
      (fun row member =>
        Std.ExtTreeMap.mem_toList_iff_getElem?_eq_some.mp member),
      Std.ExtTreeMap.map_fst_toList_eq_keys]
    simp only [Std.ExtTreeMap.mem_keys]
  have kept :
      ∀ height : Nat, height ≤ forkHeight →
        (replaced chain forkHeight branch.headers)[height]? =
          chain[height]? := by
    intro height under
    have outside : height ∉ branch.headers := by
      rw [heights]
      omega
    rw [lookup, if_neg outside, BTreeMap.getElem?_retain]
    cases chain[height]? <;> simp [under, Option.filter]
  have suffix :
      ∀ height : Nat, forkHeight < height →
        (replaced chain forkHeight branch.headers)[height]? =
          branch.headers[height]? := by
    intro height beyond
    rw [lookup]
    split
    · rfl
    · rename_i outside
      rw [BTreeMap.not_mem_iff_getElem?.mp outside,
        BTreeMap.getElem?_retain]
      have notKept : ¬ height ≤ forkHeight := by omega
      cases chain[height]? <;> simp [notKept, Option.filter]
  have samePrefix :
      (replaced chain forkHeight branch.headers).retain
          (fun height _ => height ≤ forkHeight) =
        chain.retain (fun height _ => height ≤ forkHeight) := by
    apply Std.ExtTreeMap.ext_getElem?
    intro height
    rw [BTreeMap.getElem?_retain, BTreeMap.getElem?_retain]
    by_cases under : height ≤ forkHeight
    · rw [kept height under]
    · cases chain[height]? <;>
        cases (replaced chain forkHeight branch.headers)[height]? <;>
          simp [under, Option.filter]
  have newSuffix :
      (replaced chain forkHeight branch.headers).toList.filter
          (fun row => forkHeight + 1 ≤ row.1) =
        runRows (forkHeight + 1) raws := by
    have restricted :
        (replaced chain forkHeight branch.headers).retain
            (fun height _ => forkHeight + 1 ≤ height) =
          branch.headers := by
      apply Std.ExtTreeMap.ext_getElem?
      intro height
      rw [BTreeMap.getElem?_retain]
      by_cases beyond : forkHeight < height
      · rw [suffix height beyond]
        have atLeast : forkHeight + 1 ≤ height := beyond
        cases branch.headers[height]? <;> simp [atLeast, Option.filter]
      · have outside : height ∉ branch.headers := by
          rw [heights]
          omega
        have below : ¬ forkHeight + 1 ≤ height := by omega
        rw [BTreeMap.not_mem_iff_getElem?.mp outside]
        cases (replaced chain forkHeight branch.headers)[height]? <;>
          simp [below, Option.filter]
    rw [← rows]
    have listed := congrArg Std.ExtTreeMap.toList restricted
    rw [BTreeMap.retain, Std.ExtTreeMap.toList_filter] at listed
    exact listed
  have newSum :
      HeaderBranch.sumWork btc
          (HeaderBranch.activeSuffix
            (replaced chain forkHeight branch.headers) forkHeight) =
        .ok branch.chainwork := by
    rw [HeaderBranch.activeSuffix, first, newSuffix, runRows,
      List.map_snd_zip (by simp)]
    exact summed
  obtain ⟨prefixWork, prefixSum⟩ :=
    exists_sumWork btc
      ((chain.retain (fun height _ =>
        height ≤ forkHeight)).toList.map Prod.snd) (by
      intro raw member
      obtain ⟨row, inPrefix, rfl⟩ := List.mem_map.mp member
      have present :=
        Std.ExtTreeMap.mem_toList_iff_getElem?_eq_some.mp inPrefix
      rw [BTreeMap.getElem?_retain, Option.filter_eq_some_iff] at present
      exact decodes row.1 row.2 present.1)
  unfold HeaderBranch.hasMoreWorkThanActive at compared
  cases oldSum :
      HeaderBranch.sumWork btc
        (HeaderBranch.activeSuffix chain forkHeight) with
  | error reason =>
      simp [oldSum, bind, Except.bind] at compared
  | ok replacedWork =>
      have more : replacedWork < branch.chainwork := by
        simpa [oldSum, bind, Except.bind] using compared
      refine ⟨kept, suffix, heights, validated,
        ⟨replacedWork, oldSum, newSum, more⟩,
        ⟨prefixWork + replacedWork, prefixWork + branch.chainwork, ?_, ?_,
          Nat.add_lt_add_left more prefixWork⟩⟩
      · rw [totalWork, toList_split chain forkHeight, List.map_append]
        refine sumWork_append prefixSum ?_
        rw [← oldSum, HeaderBranch.activeSuffix, first]
      · rw [totalWork, toList_split _ forkHeight, List.map_append,
          samePrefix]
        refine sumWork_append prefixSum ?_
        rw [← newSum, HeaderBranch.activeSuffix, first]

theorem switchBranch_outcome
    {core : Core Backend Raw}
    {forkHeight incomingHeight : Nat}
    {buffer : HeaderMap Raw}
    (shaped : Shaped btc core.inner.chain)
    (inRange : forkHeight < u32Max)
    (stored : forkHeight ∈ core.inner.chain) :
    let outcome : World σ Backend Raw → Prop := fun world =>
      ReorgOutcome btc core.network core.checkpoint core.inner.chain
        world.store.chain forkHeight incomingHeight
    Holds (Rests core)
      (switchBranch btc env token forkHeight incomingHeight buffer :
        WorkerM σ Backend Raw Unit)
      (fun _ => outcome) (fun _ => outcome) := by
  intro outcome
  have unchanged : ∀ world : World σ Backend Raw,
      world.store.core = core → outcome world := by
    rintro world rfl
    exact .unchanged rfl
  apply Holds.bindWorld
  rintro read rfl
  cases validated :
      HeaderBranch.validate btc read.store.network read.store.chain
        forkHeight incomingHeight buffer (env.clock read.env 0) with
  | error reason =>
      exact Holds.pure unchanged
  | ok branch =>
      cases compared :
          branch.hasMoreWorkThanActive btc read.store.chain forkHeight with
      | error reason =>
          simp only [compared]
          exact Holds.pure unchanged
      | ok more =>
          cases more with
          | false =>
              simp only [compared]
              exact Holds.pure unchanged
          | true =>
              simp only [compared]
              rcases shaped with empty | ⟨low, high, ordered, covers, decodes⟩
              · simp [empty] at stored
              · have switched :
                    ∀ inner : Inner Backend Raw,
                      Stores
                          (replaced read.store.chain forkHeight
                            branch.headers) inner →
                        ReorgOutcome btc read.store.network
                          read.store.checkpoint read.store.chain
                          inner.chain forkHeight incomingHeight := by
                  intro inner same
                  rw [show inner.chain = _ from same]
                  exact .switched
                    (switched_of_replaced decodes inRange validated
                      compared)
                have replacing :=
                  @mutate_withWriter_holds Backend Raw σ read.store.core
                    token (fun store =>
                      replaceBranchLocked btc store.checkpoint forkHeight
                        branch.headers)
                    (Stores read.store.core.inner.chain) _ _ rfl
                    (fun _ store same => by
                      have sameCheckpoint :
                          store.checkpoint = read.store.checkpoint :=
                        congrArg Core.checkpoint same
                      rw [sameCheckpoint]
                      exact replaceBranchLocked_holds btc
                        read.store.checkpoint read.store.core.inner.chain
                        forkHeight branch.headers)
                refine Holds.through (fun _ => outcome)
                  (Holds.conseq replacing (fun _ rests => rests) ?_ ?_)
                  (fun _ => Holds.pure (fun _ reached => reached))
                · rintro result world (⟨-, same⟩ | ⟨inner, -, same, ended⟩)
                  · exact unchanged world same
                  · have shape : world.store.chain = inner.chain :=
                      congrArg (fun core => core.inner.chain) same
                    cases result with
                    | ok value =>
                        show ReorgOutcome _ _ _ _ world.store.chain _ _
                        rw [shape]
                        exact switched inner ended.1
                    | error reason =>
                        show ReorgOutcome _ _ _ _ world.store.chain _ _
                        rw [shape]
                        rcases ended with reached | ⟨emptied, row, member,
                          contradicts⟩
                        · exact switched inner reached.1
                        · exact .refused emptied validated
                            (Std.ExtTreeMap.mem_toList_iff_getElem?_eq_some.mp
                              member) contradicts
                · rintro _ world ⟨inner, same, ended⟩
                  have shape : world.store.chain = inner.chain :=
                    congrArg (fun core => core.inner.chain) same
                  show ReorgOutcome _ _ _ _ world.store.chain _ _
                  rw [shape]
                  rcases ended with reached | ⟨emptied, row, member,
                    contradicts⟩
                  · exact switched inner reached.1
                  · exact .refused emptied validated
                      (Std.ExtTreeMap.mem_toList_iff_getElem?_eq_some.mp
                        member) contradicts

end Switching

section Resolving

variable {σ Backend Raw : Type} [PersistenceBackend Backend Nat Raw]
variable (btc : Bitcoin Raw) (env : Env σ Raw) (token fuel : Nat)
variable (resync : WorkerM σ Backend Raw Unit)
variable (minStored incomingHeight : Nat) (incomingRaw : Raw)

/-- What the walk back starts with: the announced header alone. -/
def announced : HeaderMap Raw :=
  (∅ : HeaderMap Raw).insert incomingHeight incomingRaw

/-- What is left once the fork search has returned. -/
def afterFork :
    Option Nat × HeaderMap Raw → WorkerM σ Backend Raw Unit
  | (none, _) => pure ()
  | (some forkHeight, buffer) => do
      let first ← addU32 forkHeight 1
      match
          ← fetchBranch btc env fuel incomingHeight fuel first buffer with
      | (false, _) => pure ()
      | (true, buffer) =>
          switchBranch btc env token forkHeight incomingHeight buffer

variable {world : World σ Backend Raw} {core : Core Backend Raw}
variable {forkHeight : Nat} {buffer : HeaderMap Raw}

theorem resolveReorg_apply
    (floor : world.store.minHeight = some minStored)
    (above : minStored < incomingHeight) :
    resolveReorg btc env token fuel resync incomingHeight incomingRaw
        world =
      (findForkPoint btc env token fuel minStored resync incomingHeight
          (announced incomingHeight incomingRaw) >>=
        afterFork btc env token fuel incomingHeight) world := by
  have positive : ¬ incomingHeight = 0 := by omega
  have notBelow : ¬ incomingHeight ≤ minStored := by omega
  unfold resolveReorg
  rw [get_bind_apply, floor]
  simp only [positive, notBelow, ↓reduceIte]
  rfl

theorem findForkPoint_holds :
    Holds (Rests core)
      (findForkPoint btc env token fuel minStored resync incomingHeight
        buffer : WorkerM σ Backend Raw (Option Nat × HeaderMap Raw))
      (fun result world =>
        ∀ forkHeight, result.1 = some forkHeight →
          Rests core world ∧ forkHeight ∈ core.inner.chain)
      (fun _ _ => True) := by
  refine Holds.step (walkBack_holds btc fuel minStored fuel _ _)
    (fun _ _ _ => trivial) ?_
  rintro ⟨outcome, walked⟩ found
  cases outcome with
  | found forkHeight =>
      apply Holds.pure
      intro world rests height isFork
      cases isFork
      exact ⟨rests, found _ rfl⟩
  | failed =>
      exact Holds.pure (by simp)
  | exhausted =>
      refine Holds.weaken (fun _ => True) (fun _ _ => trivial) ?_
      refine Holds.through (fun _ _ => True) (Holds.trivial _) (fun _ => ?_)
      refine Holds.through (fun _ _ => True) (Holds.trivial _) (fun _ => ?_)
      exact Holds.pure (by simp)

theorem afterFork_outcome
    (buffer : HeaderMap Raw)
    (shaped : Shaped btc core.inner.chain)
    (stored : forkHeight ∈ core.inner.chain) :
    let outcome : World σ Backend Raw → Prop := fun world =>
      ReorgOutcome btc core.network core.checkpoint core.inner.chain
        world.store.chain forkHeight incomingHeight
    Holds (Rests core)
      (afterFork btc env token fuel incomingHeight
        (some forkHeight, buffer) : WorkerM σ Backend Raw Unit)
      (fun _ => outcome) (fun _ => outcome) := by
  intro outcome
  have unchanged : ∀ world : World σ Backend Raw,
      world.store.core = core → outcome world := by
    rintro world rfl
    exact .unchanged rfl
  refine Holds.step (addU32_holds forkHeight 1)
    (fun _ world rests => unchanged world rests) ?_
  rintro first ⟨rfl, fits⟩
  refine Holds.bind (Holds.conseq
    (fetchBranch_keeps (fun other => other = core) btc fuel incomingHeight
      fuel _ buffer)
    (fun _ rests => rests) (fun _ _ rests => rests)
    (fun _ world rests => unchanged world rests)) ?_
  rintro ⟨fetched, longer⟩
  cases fetched with
  | false =>
      exact Holds.pure unchanged
  | true =>
      exact switchBranch_outcome shaped (by omega) stored

theorem switchBranch_refused
    (refused :
      ∀ branch,
        HeaderBranch.validate btc world.store.network world.store.chain
            forkHeight incomingHeight buffer (env.clock world.env 0) =
          .ok branch →
        branch.hasMoreWorkThanActive btc world.store.chain forkHeight ≠
          .ok true) :
    switchBranch btc env token forkHeight incomingHeight buffer world =
      .ok () world := by
  unfold switchBranch
  rw [get_bind_apply]
  cases validated :
      HeaderBranch.validate btc world.store.network world.store.chain
        forkHeight incomingHeight buffer (env.clock world.env 0) with
  | error reason =>
      rfl
  | ok branch =>
      have weaker := refused branch validated
      cases compared :
          branch.hasMoreWorkThanActive btc world.store.chain forkHeight with
      | error reason =>
          simp only [compared]
          rfl
      | ok more =>
          cases more with
          | true =>
              exact (weaker compared).elim
          | false =>
              simp only [compared]
              rfl

theorem afterFork_refused
    (refused :
      ∀ longer later,
        fetchBranch btc env fuel incomingHeight fuel (forkHeight + 1)
            buffer world = .ok (true, longer) later →
        ∀ branch,
          HeaderBranch.validate btc world.store.network world.store.chain
              forkHeight incomingHeight longer (env.clock later.env 0) =
            .ok branch →
          branch.hasMoreWorkThanActive btc world.store.chain forkHeight ≠
            .ok true) :
    (finalState (afterFork btc env token fuel incomingHeight
      (some forkHeight, buffer) world)).store.core = world.store.core := by
  have fetching :=
    @fetchBranch_keeps σ Backend Raw _ env
      (fun other => other = world.store.core) btc fuel incomingHeight fuel
      (forkHeight + 1) buffer world rfl
  simp only [afterFork]
  by_cases fits : forkHeight + 1 ≤ u32Max
  · have sum :
        (addU32 forkHeight 1 : WorkerM σ Backend Raw Nat) world =
          .ok (forkHeight + 1) world := by
      simp only [addU32, fits, ↓reduceIte]
      rfl
    rw [bind_apply_ok sum]
    cases fetched :
        fetchBranch btc env fuel incomingHeight fuel (forkHeight + 1)
          buffer world with
    | error reason later =>
        rw [fetched] at fetching
        rw [bind_apply_error fetched]
        exact fetching
    | ok result later =>
        obtain ⟨complete, longer⟩ := result
        rw [fetched] at fetching
        rw [bind_apply_ok fetched]
        have sameNetwork : later.store.network = world.store.network :=
          congrArg Core.network fetching
        have sameChain : later.store.chain = world.store.chain :=
          congrArg (fun core => core.inner.chain) fetching
        cases complete with
        | false =>
            exact fetching
        | true =>
            have weaker := refused longer later fetched
            rw [← sameNetwork, ← sameChain] at weaker
            simp only [switchBranch_refused btc env token incomingHeight
              weaker]
            exact fetching
  · have overflow :
        (addU32 forkHeight 1 : WorkerM σ Backend Raw Nat) world =
          .error .panic world := by
      simp only [addU32, fits, ↓reduceIte]
      rfl
    rw [bind_apply_error overflow]
    rfl

end Resolving

/--
What an incoming header may do to a valid chain through `resolve_reorg`,
whatever the server answers.
-/
theorem resolveReorg_keeps_or_gains
    {σ Backend Raw : Type}
    [PersistenceBackend Backend Nat Raw]
    (btc : Bitcoin Raw)
    (env : Env σ Raw)
    (token fuel minStored incomingHeight : Nat)
    (resync : WorkerM σ Backend Raw Unit)
    (incomingRaw : Raw)
    (world : World σ Backend Raw)
    (valid : ValidChain btc world.store.network world.store.chain)
    (floor : world.store.minHeight = some minStored)
    (above : minStored < incomingHeight) :
    let store := world.store
    let buffer := announced incomingHeight incomingRaw
    let after :=
      (finalState
        (resolveReorg btc env token fuel resync incomingHeight incomingRaw
          world)).store.chain
    -- A fork height was found.
    (∀ forkHeight walked later,
      findForkPoint btc env token fuel minStored resync incomingHeight
          buffer world = .ok (some forkHeight, walked) later →
        ReorgOutcome btc store.network store.checkpoint store.chain after
            forkHeight incomingHeight ∧
          -- The branch was not fetched whole, or was refused.
          ((∀ longer last,
            fetchBranch btc env fuel incomingHeight fuel (forkHeight + 1)
                walked later = .ok (true, longer) last →
              ∀ branch,
                HeaderBranch.validate btc store.network store.chain
                    forkHeight incomingHeight longer
                    (env.clock last.env 0) = .ok branch →
                branch.hasMoreWorkThanActive btc store.chain forkHeight ≠
                  .ok true) →
            after = store.chain)) ∧
      -- The walk back met a failed fetch or a header that does not decode.
      (∀ walked later,
        walkBack btc env fuel minStored fuel (incomingHeight - 1) buffer
            world = .ok (.failed, walked) later →
          after = store.chain) ∧
      (∀ reason later,
        walkBack btc env fuel minStored fuel (incomingHeight - 1) buffer
            world = .error reason later →
          after = store.chain) := by
  intro store buffer after
  have shape :=
    resolveReorg_apply btc env token fuel resync minStored incomingHeight
      incomingRaw floor above
  have walk :=
    @walkBack_holds σ Backend Raw _ env world.store.core btc fuel minStored
      fuel (incomingHeight - 1) buffer world rfl
  refine ⟨?_, ?_, ?_⟩
  · intro forkHeight walked later found
    obtain ⟨rests, stored⟩ :=
      (findForkPoint_holds btc env token fuel resync minStored
        incomingHeight).ok (show Rests world.store.core world from rfl)
        found forkHeight rfl
    have sameNetwork : later.store.network = world.store.network :=
      congrArg Core.network rests
    have sameChain : later.store.chain = world.store.chain :=
      congrArg (fun core => core.inner.chain) rests
    have ended :
        resolveReorg btc env token fuel resync incomingHeight incomingRaw
            world =
          afterFork btc env token fuel incomingHeight
            (some forkHeight, walked) later := by
      rw [shape, bind_apply_ok found]
    refine ⟨?_, ?_⟩
    · have outcome :=
        (afterFork_outcome btc env token fuel incomingHeight walked
          (show Shaped btc world.store.core.inner.chain from valid.shaped)
          stored).finalState later rests
      simp only [after, ended]
      exact outcome
    · intro refused
      rw [show store.network = later.store.network from sameNetwork.symm,
        show store.chain = later.store.chain from sameChain.symm] at refused
      have same :=
        afterFork_refused btc env token fuel incomingHeight refused
      simp only [after, ended]
      exact (congrArg (fun core => core.inner.chain) same).trans sameChain
  · intro walked later gaveUp
    rw [gaveUp] at walk
    have ended :
        resolveReorg btc env token fuel resync incomingHeight incomingRaw
            world = .ok () later := by
      rw [shape, findForkPoint, bind_assoc, bind_apply_ok gaveUp]
      rfl
    simp only [after, ended]
    exact congrArg (fun core => core.inner.chain) walk.1
  · intro reason later failed
    rw [failed] at walk
    have ended :
        resolveReorg btc env token fuel resync incomingHeight incomingRaw
            world = .error reason later := by
      rw [shape, findForkPoint, bind_assoc, bind_apply_error failed]
    simp only [after, ended]
    exact congrArg (fun core => core.inner.chain) walk

/-- The headers of a chain asked for, as far as it goes. -/
def servedRange
    (served : Nat → Raw)
    (tip start count : Nat) : List Raw :=
  (List.range' start (min count (tip + 1 - start))).map served

/--
A server with one chain: it announces its tip and answers every request
exactly from that chain.  Its state counts the waits and holds the request
still to be answered.
-/
def honestServer
    (served : Nat → Raw)
    (tip : Nat)
    (clock : Nat → Nat → Nat) : Env (Nat × Option HeaderRequest) Raw where
  send request state := some (state.1, some request)
  recv state :=
    match state.2 with
    | none => (.timeout, (state.1 + 1, none))
    | some .subscribe =>
        (.response (.tip (UInt32.ofNat tip) (served tip)),
          (state.1 + 1, none))
    | some (.getHeaders start count) =>
        (.response
            (.batch (UInt32.ofNat start)
              (servedRange served tip start count)),
          (state.1 + 1, none))
  outside _ := []
  clock state reading := clock state.1 reading

def regtestHeader (prevBlockhash time nonce : Nat) : Header where
  version := 1
  prevBlockhash := prevBlockhash
  merkleRoot := 0
  time := time
  bits := 1000
  nonce := nonce

/-- A stored chain of two blocks, and a server whose third block forks it. -/
def forkedWorld :
    World (Nat × Option HeaderRequest) (HeaderBackend Header) Header where
  store :=
    HeaderStore.withCheckpoint Bitcoin.sample 1000 .regtest none
      { rows :=
          ((∅ : HeaderMap Header).insert 0 (regtestHeader 0 100 0)).insert 1
            (regtestHeader 0 200 1)
        faults := [] }
  env := (0, none)
  deferred := []

def forkedChain : Nat → Header
  | 0 => regtestHeader 0 100 0
  | 1 => regtestHeader 0 210 11
  | _ => regtestHeader 11 220 12

/-- The heavier branch of that server replaces the block above genesis. -/
theorem resolveReorg_switches_forked :
    let env := honestServer forkedChain 2 (fun _ _ => 1000)
    let after :=
      (finalState
        (resolveReorg Bitcoin.sample env 0 5 (pure ()) 2 (forkedChain 2)
          forkedWorld)).store.chain
    after[2]? = some (forkedChain 2) ∧
      ReorgOutcome Bitcoin.sample .regtest none forkedWorld.store.chain
        after 0 2 := by
  intro env after
  have floor : forkedWorld.store.minHeight = some 0 := by
    decide +kernel
  have valid :
      ValidChain Bitcoin.sample forkedWorld.store.network
        forkedWorld.store.chain :=
    validChain_withCheckpoint Bitcoin.sample .regtest none _ 1000
  have search :
      ((findForkPoint Bitcoin.sample env 0 5 0 (pure ()) 2
        (announced 2 (forkedChain 2))).run' forkedWorld).map Prod.fst =
        some (some 0) := by
    decide +kernel
  refine ⟨by decide +kernel, ?_⟩
  rw [EStateM.run', EStateM.run] at search
  cases found :
      findForkPoint Bitcoin.sample env 0 5 0 (pure ()) 2
        (announced 2 (forkedChain 2)) forkedWorld with
  | ok result later =>
      obtain ⟨forkPoint, walked⟩ := result
      rw [found] at search
      cases search
      exact ((resolveReorg_keeps_or_gains Bitcoin.sample env 0 5 0 2
        (pure ()) (forkedChain 2) forkedWorld valid floor (by decide)).1 0
          walked later found).1
  | error halt later =>
      rw [found] at search
      cases search

end Bwk
