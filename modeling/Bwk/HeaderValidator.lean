import Bwk.OrderedMap

namespace Bwk

/-!
# The header-chain validator

`electrum/src/header_validator.rs`: given the headers stored below a height,
decide whether one more header may follow them.  Hashing, the expansion of a
compact target and the retarget arithmetic come from the `bitcoin` crate and
are parameters, collected in `Bitcoin`; everything the validator itself decides
is spelled out.
-/

/-- The networks the `bitcoin` crate distinguishes. -/
inductive Network where
  | bitcoin
  | testnet
  | testnet4
  | signet
  | regtest
  deriving Repr, DecidableEq

/-- A block hash, read as the number its target is compared with. -/
abbrev BlockHash := Nat

/-- The root of a block's merkle tree. -/
abbrev TxMerkleNode := Nat

/-- The 32-bit encoding of a target. -/
abbrev CompactTarget := Nat

/-- The number a block hash must not exceed. -/
abbrev Target := Nat

/-- Expected number of hashes behind a header. -/
abbrev Work := Nat

structure Header where
  version : Nat
  prevBlockhash : BlockHash
  merkleRoot : TxMerkleNode
  time : Nat
  bits : CompactTarget
  nonce : Nat
  deriving Repr, DecidableEq

/-- The consensus parameters the validator reads. -/
structure Params where
  powTargetTimespan : Nat
  powTargetSpacing : Nat
  noPowRetargeting : Bool
  maxAttainableTarget : Target
  deriving Repr, DecidableEq

/--
What the `bitcoin` crate supplies: decoding, hashing and target arithmetic.
`Raw` is the type of the 80 bytes a header is stored and sent as.
-/
structure Bitcoin (Raw : Type) where
  deserialize : Raw → Option Header
  blockHash : Header → BlockHash
  target : CompactTarget → Target
  toWork : Target → Work
  fromNextWorkRequired : CompactTarget → Nat → Params → CompactTarget
  maxAttainableTarget : Network → Target
  genesisBlock : Network → BlockHash

/-- `Params::new`: one retarget schedule for every network. -/
def Params.new (btc : Bitcoin Raw) (network : Network) : Params where
  powTargetTimespan := 14 * 24 * 60 * 60
  powTargetSpacing := 10 * 60
  noPowRetargeting := network = .regtest
  maxAttainableTarget := btc.maxAttainableTarget network

/--
A stand-in for the crate, for evaluating the model on concrete headers: the
nonce is the hash, the encoding of a target is the target, and the retarget
arithmetic is the usual one on these.
-/
def Bitcoin.sample : Bitcoin Header where
  deserialize := some
  blockHash header := header.nonce
  target bits := bits
  toWork target := 2 ^ 32 / (target + 1)
  fromNextWorkRequired bits timespan params :=
    let bounded :=
      min (max timespan (params.powTargetTimespan / 4))
        (params.powTargetTimespan * 4)
    min (bits * bounded / params.powTargetTimespan)
      params.maxAttainableTarget
  maxAttainableTarget _ := 2 ^ 32 - 1
  genesisBlock _ := 0

/-- A block may be dated at most this many seconds ahead of the local clock. -/
def maxFutureBlockTime : Nat := 7200

/-- Number of ancestor block times the median-time-past check looks at. -/
def mtpWindow : Nat := 11

/-- Why the validator refuses a header. -/
inductive ValidatorError where
  | pow
  | prevHashMismatch
  | badRetarget
  | bitsMismatch
  | mtpViolation
  | timestampTooFarInFuture
  | genesisMismatch
  | missingAncestor
  | malformedHeader
  deriving Repr, DecidableEq

/-- Network-pinned genesis block hash; `regtest` has none. -/
def expectedGenesis
    (btc : Bitcoin Raw) :
    Network → Option BlockHash
  | .regtest => none
  | network => some (btc.genesisBlock network)

/-- Number of blocks between difficulty retargets. -/
def Params.retargetInterval (params : Params) : Nat :=
  params.powTargetTimespan / params.powTargetSpacing

/--
`Header::validate_pow`: the header must claim exactly the required target and
its hash must meet it.
-/
def validatePow
    (btc : Bitcoin Raw)
    (header : Header)
    (required : Target) : Bool :=
  btc.target header.bits = required ∧
    btc.blockHash header ≤ btc.target header.bits

/-- Proof of work, with the claimed target clamped to the network's limit. -/
def checkPow
    (btc : Bitcoin Raw)
    (params : Params)
    (incoming : Header) :
    Except ValidatorError Unit :=
  let target := min (btc.target incoming.bits) params.maxAttainableTarget
  if validatePow btc incoming target then .ok () else .error .pow

/-- A header must name its parent's hash. -/
def checkLinkage
    (btc : Bitcoin Raw)
    (prev incoming : Header) :
    Except ValidatorError Unit :=
  if incoming.prevBlockhash = btc.blockHash prev then
    .ok ()
  else
    .error .prevHashMismatch

/-- The height-0 header must be the network's pinned genesis. -/
def checkGenesis
    (btc : Bitcoin Raw)
    (network : Network)
    (incoming : Header) :
    Except ValidatorError Unit :=
  match expectedGenesis btc network with
  | some genesis =>
      if btc.blockHash incoming ≠ genesis then
        .error .genesisMismatch
      else
        .ok ()
  | none => .ok ()

/-- The future-timestamp cap against the local clock. -/
def checkFutureCap
    (incoming : Header)
    (nowSecs : Nat) :
    Except ValidatorError Unit :=
  if incoming.time > nowSecs + maxFutureBlockTime then
    .error .timestampTooFarInFuture
  else
    .ok ()

/--
The difficulty rule.  `ancestors` is newest-last, so the start of the previous
retarget period sits one interval before its end.
-/
def checkRetarget
    (btc : Bitcoin Raw)
    (params : Params)
    (ancestors : List Header)
    (incomingHeight : Nat)
    (prev incoming : Header) :
    Except ValidatorError Unit :=
  if params.noPowRetargeting then
    .ok ()
  else if incomingHeight % params.retargetInterval = 0 then
    if ancestors.length < params.retargetInterval then
      .error .missingAncestor
    else
      match ancestors[ancestors.length - params.retargetInterval]? with
      | none => .error .missingAncestor
      | some periodStart =>
          -- A window that runs backwards clamps to zero, not to a huge span.
          let actualTimespan := prev.time - periodStart.time
          let expected :=
            btc.fromNextWorkRequired prev.bits actualTimespan params
          if incoming.bits ≠ expected then .error .badRetarget else .ok ()
  else if incoming.bits ≠ prev.bits then
    .error .bitsMismatch
  else
    .ok ()

/-- The middle element of the sorted times, the upper one of an even number. -/
def medianTime (times : List Nat) : Nat :=
  (times.insertionSort (· ≤ ·)).getD (times.length / 2) 0

/-- Median-time-past over however many ancestors exist, up to the window. -/
def checkMtp
    (network : Network)
    (ancestors : List Header)
    (incoming : Header) :
    Except ValidatorError Unit :=
  if network = .regtest then
    .ok ()
  else if ancestors = [] then
    .ok ()
  else
    let window := min ancestors.length mtpWindow
    let times := (ancestors.drop (ancestors.length - window)).map Header.time
    if incoming.time ≤ medianTime times then .error .mtpViolation else .ok ()

/-- The networks whose difficulty rules the validator does not check. -/
def Network.relaxesDifficulty : Network → Bool
  | .testnet | .testnet4 => true
  | .bitcoin | .signet | .regtest => false

/-- Validate that `incoming` can be appended after `ancestors`. -/
def validateAppend
    (btc : Bitcoin Raw)
    (network : Network)
    (ancestors : List Header)
    (incomingHeight : Nat)
    (incoming : Header)
    (nowSecs : Nat) :
    Except ValidatorError Unit := do
  checkFutureCap incoming nowSecs
  let params := Params.new btc network
  if incomingHeight = 0 then
    checkGenesis btc network incoming
    checkPow btc params incoming
  else
    match ancestors.getLast? with
    | none => .error .missingAncestor
    | some prev => do
        checkPow btc params incoming
        checkLinkage btc prev incoming
        if !network.relaxesDifficulty then
          checkRetarget btc params ancestors incomingHeight prev incoming
        checkMtp network ancestors incoming

/-- Every network retargets every 2016 blocks. -/
@[simp] theorem retargetInterval_new
    (btc : Bitcoin Raw)
    (network : Network) :
    (Params.new btc network).retargetInterval = 2016 := by
  simp [Params.retargetInterval, Params.new]

private theorem andThen_eq_ok_iff
    {ε : Type}
    {first second : Except ε Unit} :
    (first >>= fun _ => second) = .ok () ↔
      first = .ok () ∧ second = .ok () := by
  cases first with
  | error reason | ok value =>
      simp [bind, Except.bind]

variable {btc : Bitcoin Raw} {network : Network} {short long : List Header}
variable {ancestors : List Header} {incoming : Header} {incomingHeight : Nat}
variable {nowSecs : Nat}

theorem validateAppend_zero_eq_ok_iff :
    validateAppend btc network ancestors 0 incoming nowSecs = .ok () ↔
      checkFutureCap incoming nowSecs = .ok () ∧
        checkGenesis btc network incoming = .ok () ∧
        checkPow btc (Params.new btc network) incoming = .ok () := by
  simp only [validateAppend, ↓reduceIte, andThen_eq_ok_iff]

theorem validateAppend_eq_ok_iff
    (positive : incomingHeight ≠ 0) :
    validateAppend btc network ancestors incomingHeight incoming nowSecs =
        .ok () ↔
      checkFutureCap incoming nowSecs = .ok () ∧
        ∃ prev,
          ancestors.getLast? = some prev ∧
          checkPow btc (Params.new btc network) incoming = .ok () ∧
          checkLinkage btc prev incoming = .ok () ∧
          (network.relaxesDifficulty = false →
            checkRetarget btc (Params.new btc network) ancestors
              incomingHeight prev incoming = .ok ()) ∧
          checkMtp network ancestors incoming = .ok () := by
  cases parent : ancestors.getLast? with
  | none =>
      simp [validateAppend, positive, parent, andThen_eq_ok_iff]
  | some prev =>
      simp only [validateAppend, positive, ↓reduceIte, parent,
        andThen_eq_ok_iff, Option.some.injEq, exists_eq_left']
      cases network.relaxesDifficulty <;> simp [andThen_eq_ok_iff]

@[simp] theorem checkLinkage_eq_ok_iff
    {prev incoming : Header} :
    checkLinkage btc prev incoming = .ok () ↔
      incoming.prevBlockhash = btc.blockHash prev := by
  simp [checkLinkage]

theorem checkFutureCap_later
    {earlier later : Nat}
    (accepted : checkFutureCap incoming earlier = .ok ())
    (ordered : earlier ≤ later) :
    checkFutureCap incoming later = .ok () := by
  simp only [checkFutureCap, ite_eq_right_iff, reduceCtorEq, imp_false,
    not_lt] at accepted ⊢
  omega

theorem validateAppend_later
    {incomingHeight earlier later : Nat}
    (accepted :
      validateAppend btc network ancestors incomingHeight incoming earlier =
        .ok ())
    (ordered : earlier ≤ later) :
    validateAppend btc network ancestors incomingHeight incoming later =
      .ok () := by
  by_cases atZero : incomingHeight = 0
  · subst atZero
    rw [validateAppend_zero_eq_ok_iff] at accepted ⊢
    exact ⟨checkFutureCap_later accepted.1 ordered, accepted.2⟩
  · rw [validateAppend_eq_ok_iff atZero] at accepted ⊢
    exact ⟨checkFutureCap_later accepted.1 ordered, accepted.2⟩

theorem blockHash_of_checkGenesis
    {genesis : BlockHash}
    (accepted : checkGenesis btc network incoming = .ok ())
    (pinned : expectedGenesis btc network = some genesis) :
    btc.blockHash incoming = genesis := by
  by_contra different
  simp [checkGenesis, pinned, different] at accepted

/--
The difficulty rule reads only the parent and, at a boundary, the header one
interval below.  Lengthening the window at its old end therefore cannot turn
acceptance into refusal while the window stays within one interval.
-/
theorem checkRetarget_of_suffix
    {params : Params}
    {prev incoming : Header}
    (suffix : short <:+ long)
    (bounded : long.length ≤ params.retargetInterval)
    (accepted :
      checkRetarget btc params short incomingHeight prev incoming =
        .ok ()) :
    checkRetarget btc params long incomingHeight prev incoming =
      .ok () := by
  by_cases boundary : incomingHeight % params.retargetInterval = 0
  · by_cases full : short.length < params.retargetInterval
    · by_cases skipped : params.noPowRetargeting = true
      · simp [checkRetarget, skipped]
      · simp [checkRetarget, skipped, boundary, full] at accepted
    · have sameLength : long.length ≤ short.length := by
        omega
      rw [← suffix.eq_of_length_le sameLength]
      exact accepted
  · simpa [checkRetarget, boundary] using accepted

/--
The median rule reads the last ancestors only, so a window that already has
enough of them may be lengthened at its old end.
-/
theorem checkMtp_of_suffix
    (suffix : short <:+ long)
    (enough : mtpWindow ≤ short.length) :
    checkMtp network long incoming = checkMtp network short incoming := by
  obtain ⟨older, rfl⟩ := suffix
  have positive : 0 < mtpWindow := by decide
  have shortNonempty : short ≠ [] := by
    rw [← List.length_pos_iff]
    omega
  have longNonempty : older ++ short ≠ [] := by simp [shortNonempty]
  have seen :
      (older ++ short).drop
          ((older ++ short).length -
            min (older ++ short).length mtpWindow) =
        short.drop (short.length - min short.length mtpWindow) := by
    rw [List.length_append, show
      older.length + short.length -
          min (older.length + short.length) mtpWindow =
        older.length + (short.length - min short.length mtpWindow) by omega,
      List.drop_append]
    simp
  simp only [checkMtp, shortNonempty, longNonempty, ↓reduceIte, seen]

end Bwk
