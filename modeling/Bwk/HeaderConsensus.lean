import Bwk.HeaderValidator

namespace Bwk

/-!
# The consensus rule behind the validator

Bitcoin's rule for the work a header has to claim, and its rule for the time it
may carry, in their own terms: over a chain that is a function from heights to
headers, with the exceptions each network makes.  With a full window of
ancestors the validator decides the first two networks' rule exactly; where it
leaves a rule out, what it does instead is stated beside it.
-/

/-- The middle of the times in order. -/
def IsMedian (times : List Nat) (median : Nat) : Prop :=
  ∃ sorted : List Nat,
    sorted.Perm times ∧ sorted.Pairwise (· ≤ ·) ∧
      sorted[times.length / 2]? = some median

theorem isMedian_iff
    {times : List Nat}
    (some : times ≠ [])
    (median : Nat) :
    IsMedian times median ↔ medianTime times = median := by
  have inside :
      times.length / 2 < (times.insertionSort (· ≤ ·)).length := by
    rw [List.length_insertionSort]
    exact Nat.div_lt_self (List.length_pos_iff.mpr some) (by decide)
  have middle :
      (times.insertionSort (· ≤ ·))[times.length / 2]? =
        Option.some (medianTime times) := by
    rw [medianTime, List.getD_eq_getElem?_getD,
      List.getElem?_eq_getElem inside]
    rfl
  have ordered := List.pairwise_insertionSort (· ≤ ·) times
  constructor
  · rintro ⟨sorted, same, increasing, found⟩
    have one : sorted = times.insertionSort (· ≤ ·) :=
      (same.trans (List.perm_insertionSort (· ≤ ·) times).symm).eq_of_pairwise'
        increasing ordered
    rw [one, middle] at found
    exact Option.some.inj found
  · rintro rfl
    exact ⟨_, List.perm_insertionSort _ times, ordered, middle⟩

/-- What a network asks of the work of a header. -/
structure WorkRules where
  targetTimespan : Nat
  targetSpacing : Nat
  limit : Target
  allowMinDifficultyBlocks : Bool
  noRetargeting : Bool
  /-- A retarget starts from the first header of the period, not the last. -/
  enforceBip94 : Bool

namespace WorkRules

/-- The number of blocks of a period. -/
def interval (rules : WorkRules) : Nat :=
  rules.targetTimespan / rules.targetSpacing

/-- The same rules without the exception for slow blocks. -/
def withoutMinDifficulty (rules : WorkRules) : WorkRules :=
  { rules with
    allowMinDifficultyBlocks := false
    enforceBip94 := false }

end WorkRules

/-- The rules of a network: the test networks let a slow block claim the least
work, and the regression network never retargets. -/
def workRules (btc : Bitcoin Raw) (network : Network) : WorkRules where
  targetTimespan := 14 * 24 * 60 * 60
  targetSpacing := 10 * 60
  limit := btc.maxAttainableTarget network
  allowMinDifficultyBlocks :=
    network = .testnet ∨ network = .testnet4 ∨ network = .regtest
  noRetargeting := network = .regtest
  enforceBip94 := network = .testnet4

/-- A timespan no shorter than a quarter and no longer than four times what it
should be. -/
def clampTimespan (timespan : Nat) (actual : Int) : Nat :=
  (max (timespan / 4 : Int) (min (timespan * 4 : Int) actual)).toNat

section Rule

variable
    (btc : Bitcoin Raw)
    (toCompact : Target → CompactTarget)
    (rules : WorkRules)
    (chain : Nat → Header)

/-- The target of the next period, from the bits it starts from and the time
the last one took. -/
def calculateNextWork (bits : CompactTarget) (actual : Int) : CompactTarget :=
  toCompact
    (min rules.limit
      (btc.target bits * clampTimespan rules.targetTimespan actual /
        rules.targetTimespan))

/-- The bits of the last header that is not one of the exceptions. -/
def lastOrdinaryBits : Nat → CompactTarget
  | 0 => (chain 0).bits
  | height + 1 =>
      if (height + 1) % rules.interval ≠ 0 ∧
          (chain (height + 1)).bits = toCompact rules.limit then
        lastOrdinaryBits height
      else
        (chain (height + 1)).bits

/-- The bits a header of this time must claim at a height. -/
def nextWorkRequired (height time : Nat) : CompactTarget :=
  let last := chain (height - 1)
  if height % rules.interval ≠ 0 then
    if rules.allowMinDifficultyBlocks then
      if time > last.time + rules.targetSpacing * 2 then
        toCompact rules.limit
      else
        lastOrdinaryBits toCompact rules chain (height - 1)
    else
      last.bits
  else if rules.noRetargeting then
    last.bits
  else
    let first := chain (height - rules.interval)
    let bits := if rules.enforceBip94 then first.bits else last.bits
    calculateNextWork btc toCompact rules bits ((last.time : Int) - first.time)

end Rule

/-- The headers right below a height, newest last. -/
def priorHeaders (chain : Nat → Header) (height count : Nat) : List Header :=
  (List.range' (height - count) count).map chain

/-- What the `bitcoin` crate documents of the retarget arithmetic: the clamped
target of a timespan. -/
def ComputesNextWork
    (btc : Bitcoin Raw)
    (toCompact : Target → CompactTarget) : Prop :=
  ∀ (bits : CompactTarget) (timespan : Nat) (params : Params),
    params.noPowRetargeting = false →
      btc.fromNextWorkRequired bits timespan params =
        toCompact
          (min params.maxAttainableTarget
            (btc.target bits *
                min (max timespan (params.powTargetTimespan / 4))
                  (params.powTargetTimespan * 4) /
              params.powTargetTimespan))

section Window

variable (chain : Nat → Header) {height count : Nat}

@[simp]
theorem length_priorHeaders :
    (priorHeaders chain height count).length = count := by
  rw [priorHeaders, List.length_map, List.length_range']

theorem getElem?_priorHeaders
    {back : Nat}
    (positive : 0 < back)
    (inside : back ≤ count)
    (below : count ≤ height) :
    (priorHeaders chain height count)[count - back]? =
      some (chain (height - back)) := by
  rw [priorHeaders, List.getElem?_map, List.getElem?_range' (by omega),
    Option.map_some]
  congr 2
  omega

theorem drop_priorHeaders
    {back : Nat}
    (inside : back ≤ count)
    (below : count ≤ height) :
    (priorHeaders chain height count).drop (count - back) =
      priorHeaders chain height back := by
  rw [priorHeaders, priorHeaders, ← List.map_drop, List.drop_range']
  congr 2 <;> omega

theorem getLast?_priorHeaders
    (positive : 0 < count)
    (below : count ≤ height) :
    (priorHeaders chain height count).getLast? =
      some (chain (height - 1)) := by
  rw [List.getLast?_eq_getElem?, length_priorHeaders]
  exact getElem?_priorHeaders chain (by decide) positive below

end Window

/-- The clamps of the source and of the rule agree, also on times that run
backwards. -/
theorem clampTimespan_eq (timespan last first : Nat) :
    min (max (last - first) (timespan / 4)) (timespan * 4) =
      clampTimespan timespan ((last : Int) - first) := by
  unfold clampTimespan
  omega

section Validator

variable
    {btc : Bitcoin Raw}
    {toCompact : Target → CompactTarget}
    {network : Network}
    (chain : Nat → Header)
    {height count : Nat}
    (incoming : Header)

/-- Off the regression network the difficulty check is the rule without the
exceptions of the test networks. -/
theorem checkRetarget_priorHeaders
    (computes : ComputesNextWork btc toCompact)
    (retargets : network ≠ .regtest)
    (full : 2016 ≤ count)
    (below : count ≤ height) :
    checkRetarget btc (Params.new btc network)
        (priorHeaders chain height count) height (chain (height - 1))
        incoming = .ok () ↔
      incoming.bits =
        nextWorkRequired btc toCompact
          (workRules btc network).withoutMinDifficulty chain height
          incoming.time := by
  have moves : (Params.new btc network).noPowRetargeting = false := by
    simp [Params.new, retargets]
  have period :
      (workRules btc network).withoutMinDifficulty.interval = 2016 := by
    simp [WorkRules.interval, WorkRules.withoutMinDifficulty, workRules]
  have still :
      (workRules btc network).withoutMinDifficulty.noRetargeting = false := by
    simp [WorkRules.withoutMinDifficulty, workRules, retargets]
  rw [checkRetarget, moves, retargetInterval_new, nextWorkRequired, period,
    still]
  by_cases boundary : height % 2016 = 0
  · have first :=
      @getElem?_priorHeaders chain height count 2016 (by decide) full below
    have required :=
      computes (chain (height - 1)).bits
        ((chain (height - 1)).time - (chain (height - 2016)).time)
        (Params.new btc network) moves
    rw [clampTimespan_eq] at required
    simp only [boundary, not_true_eq_false, if_false, if_true,
      Bool.false_eq_true, ne_eq, length_priorHeaders, not_lt.mpr full, first,
      required, ite_not]
    by_cases same :
        incoming.bits =
          toCompact
            (min (Params.new btc network).maxAttainableTarget
              (btc.target (chain (height - 1)).bits *
                clampTimespan (Params.new btc network).powTargetTimespan
                  (((chain (height - 1)).time : Int) -
                    (chain (height - 2016)).time) /
                (Params.new btc network).powTargetTimespan))
    · rw [if_pos same]
      exact iff_of_true rfl same
    · rw [if_neg same]
      exact iff_of_false (by simp) same
  · have plain :
        (workRules btc
          network).withoutMinDifficulty.allowMinDifficultyBlocks = false :=
      rfl
    simp only [boundary, not_false_eq_true, if_false, if_true,
      Bool.false_eq_true, ne_eq, plain, ite_not]
    by_cases same : incoming.bits = (chain (height - 1)).bits
    · rw [if_pos same]
      exact iff_of_true rfl same
    · rw [if_neg same]
      exact iff_of_false (by simp) same

theorem checkMtp_priorHeaders
    (dated : network ≠ .regtest)
    (full : 11 ≤ count)
    (below : count ≤ height) :
    checkMtp network (priorHeaders chain height count) incoming = .ok () ↔
      ∃ median,
        IsMedian ((priorHeaders chain height 11).map Header.time) median ∧
          median < incoming.time := by
  have some : priorHeaders chain height count ≠ [] := by
    intro nothing
    have counted := @length_priorHeaders chain height count
    rw [nothing] at counted
    simp at counted
    omega
  have times : (priorHeaders chain height 11).map Header.time ≠ [] := by
    intro nothing
    have counted := congrArg List.length nothing
    rw [List.length_map, length_priorHeaders] at counted
    cases counted
  simp only [isMedian_iff times, exists_eq_left']
  have seen :
      (priorHeaders chain height count).drop
          ((priorHeaders chain height count).length -
            min (priorHeaders chain height count).length mtpWindow) =
        priorHeaders chain height 11 := by
    rw [length_priorHeaders, mtpWindow, Nat.min_eq_right full]
    exact drop_priorHeaders chain full below
  simp only [checkMtp, if_neg dated, if_neg some, seen]
  by_cases later :
      incoming.time ≤
        medianTime ((priorHeaders chain height 11).map Header.time)
  · rw [if_pos later]
    exact iff_of_false (by simp) (by omega)
  · rw [if_neg later]
    exact iff_of_true rfl (by omega)

/-- The validator with a full window of ancestors: the consensus rule on the
main and the signet network; on the test networks the difficulty is not looked
at, and the check that is skipped knows no exception; on the regression network
neither difficulty nor time is. -/
theorem validator_decides_consensus
    (btc : Bitcoin Raw)
    (toCompact : Target → CompactTarget)
    (network : Network)
    (chain : Nat → Header)
    (height count : Nat)
    (incoming : Header)
    (computes : ComputesNextWork btc toCompact)
    (full : 2016 + 11 ≤ count)
    (below : count ≤ height) :
    let ancestors := priorHeaders chain height count
    let retarget :=
      checkRetarget btc (Params.new btc network) ancestors height
        (chain (height - 1)) incoming
    (network = .bitcoin ∨ network = .signet →
        (retarget = .ok () ↔
          incoming.bits =
            nextWorkRequired btc toCompact (workRules btc network) chain
              height incoming.time)) ∧
      (network = .testnet ∨ network = .testnet4 →
        (retarget = .ok () ↔
          incoming.bits =
            nextWorkRequired btc toCompact
              (workRules btc network).withoutMinDifficulty chain height
              incoming.time) ∧
        ∀ nowSecs,
          validateAppend btc network ancestors height incoming nowSecs =
              .ok () ↔
            checkFutureCap incoming nowSecs = .ok () ∧
              checkPow btc (Params.new btc network) incoming = .ok () ∧
              checkLinkage btc (chain (height - 1)) incoming = .ok () ∧
              checkMtp network ancestors incoming = .ok ()) ∧
      (network = .regtest →
        retarget = .ok () ∧ checkMtp network ancestors incoming = .ok ()) ∧
      (network ≠ .regtest →
        (checkMtp network ancestors incoming = .ok () ↔
          ∃ median,
            IsMedian ((priorHeaders chain height 11).map Header.time) median ∧
              median < incoming.time)) := by
  intro ancestors retarget
  have rule (retargets : network ≠ .regtest) :=
    checkRetarget_priorHeaders chain incoming computes retargets
      (show 2016 ≤ count by omega) below
  refine ⟨?_, ?_, ?_, fun dated =>
    checkMtp_priorHeaders chain incoming dated (by omega) below⟩
  · rintro (rfl | rfl)
    · exact rule (by decide)
    · exact rule (by decide)
  · intro relaxed
    have retargets : network ≠ .regtest := by
      rcases relaxed with rfl | rfl <;> decide
    refine ⟨rule retargets, fun nowSecs => ?_⟩
    have relaxes : network.relaxesDifficulty = true := by
      rcases relaxed with rfl | rfl <;> rfl
    have parent :=
      @getLast?_priorHeaders chain height count (by omega) below
    rw [validateAppend_eq_ok_iff (by omega), parent]
    simp [relaxes, ancestors]
  · rintro rfl
    exact ⟨by simp [retarget, checkRetarget, Params.new],
      by simp [checkMtp]⟩

/-- The stand-in for the crate computes the clamped target of a timespan. -/
theorem computesNextWork_sample :
    ComputesNextWork Bitcoin.sample (fun target => target) := by
  intro bits timespan params _
  exact Nat.min_comm _ _

/-- A chain with a block every ten minutes. -/
def steadyChain (height : Nat) : Header :=
  ⟨1, height - 1, 0, 600 * height, 1000, height⟩

/-- On the main network, at a boundary of a steady chain. -/
theorem validator_decides_consensus_steady :
    checkRetarget Bitcoin.sample (Params.new Bitcoin.sample .bitcoin)
        (priorHeaders steadyChain 4032 2027) 4032 (steadyChain 4031)
        (steadyChain 4032) = .ok () ↔
      (steadyChain 4032).bits =
        nextWorkRequired Bitcoin.sample (fun target => target)
          (workRules Bitcoin.sample .bitcoin) steadyChain 4032
          (steadyChain 4032).time :=
  (validator_decides_consensus Bitcoin.sample (fun target => target) .bitcoin
    steadyChain 4032 2027 (steadyChain 4032) computesNextWork_sample
    (by decide) (by decide)).1 (Or.inl rfl)

/-- On a test network the difficulty check refuses the block that the rule lets
claim the least work, and on the regression network it accepts bits that the
rule does not ask for, and a time that is not past the median. -/
theorem exceptions_left_out :
    let slow : Header :=
      ⟨1, 2999, 0, 600 * 2999 + 1201, 2 ^ 32 - 1, 3000⟩
    let early : Header := ⟨1, 2999, 0, 0, 7, 3000⟩
    let ancestors := priorHeaders steadyChain 3000 2027
    ComputesNextWork Bitcoin.sample (fun target => target) ∧
      (slow.bits =
          nextWorkRequired Bitcoin.sample (fun target => target)
            (workRules Bitcoin.sample .testnet) steadyChain 3000 slow.time ∧
        checkRetarget Bitcoin.sample (Params.new Bitcoin.sample .testnet)
            ancestors 3000 (steadyChain 2999) slow =
          .error .bitsMismatch) ∧
      (early.bits ≠
          nextWorkRequired Bitcoin.sample (fun target => target)
            (workRules Bitcoin.sample .regtest) steadyChain 3000 early.time ∧
        checkRetarget Bitcoin.sample (Params.new Bitcoin.sample .regtest)
            ancestors 3000 (steadyChain 2999) early =
          .ok ()) ∧
      early.time ≤
        medianTime ((priorHeaders steadyChain 3000 11).map Header.time) ∧
      checkMtp .regtest ancestors early = .ok () := by
  refine ⟨computesNextWork_sample, ⟨?_, ?_⟩, ⟨?_, ?_⟩, Nat.zero_le _, ?_⟩
  · simp [nextWorkRequired, WorkRules.interval, workRules, steadyChain,
      Bitcoin.sample]
  · simp [checkRetarget, Params.new, Params.retargetInterval, steadyChain]
  · have ordinary :
        lastOrdinaryBits (fun target => target)
            (workRules Bitcoin.sample .regtest) steadyChain 2999 =
          1000 := by
      simp [lastOrdinaryBits, WorkRules.interval, workRules, steadyChain,
        Bitcoin.sample]
    have required :
        nextWorkRequired Bitcoin.sample (fun target => target)
            (workRules Bitcoin.sample .regtest) steadyChain 3000 0 =
          lastOrdinaryBits (fun target => target)
            (workRules Bitcoin.sample .regtest) steadyChain 2999 := by
      simp [nextWorkRequired, WorkRules.interval, workRules, steadyChain]
    rw [required, ordinary]
    decide
  · simp [checkRetarget, Params.new]
  · simp [checkMtp]

end Validator

end Bwk
