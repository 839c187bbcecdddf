import Mathlib.Data.List.Nodup
import Mathlib.Data.List.Perm.Subperm
import Mathlib.Tactic.NoncommRing
import Bwk.XOnlyKeys

namespace Bwk

/-!
# Receiving silent payments

`sp/src/core/receiving.rs` and `sp/src/core/utils/common.rs`, over an abstract
curve: its scalars, its points and its x-only keys.  The hashes come from
outside.
-/

/-- Why a key operation failed. -/
inductive KeyError where
  | unsupportedVersion (version : Nat)
  | invalidSecretKey
  | pointAtInfinity
  | invalidXOnlyKey
  deriving Repr, DecidableEq

/-- A curve, its generator, and the hash of a shared secret and an index. -/
structure SpCurve (S G X : Type) [CommRing S] [AddCommGroup G] [Module S G]
    extends XOnlyKeys G X where
  generator : G
  sharedSecretHash : G → Nat → S

namespace SpCurve

variable
    {S G X : Type}
    [CommRing S] [AddCommGroup G] [Module S G]
    [DecidableEq S] [DecidableEq G]
    (curve : SpCurve S G X)

def secretKey (scalar : S) : Except KeyError S :=
  if scalar = 0 then .error .invalidSecretKey else .ok scalar

/-- The sum of two public keys. -/
def combine (first second : G) : Except KeyError G :=
  if first + second = 0 then .error .pointAtInfinity else .ok (first + second)

/-- The tweak of the `n`-th output under a shared secret. -/
def calculateTn (secret : G) (n : Nat) : Except KeyError S :=
  secretKey (curve.sharedSecretHash secret n)

def calculatePn (spendKey : G) (tweak : S) : Except KeyError G :=
  combine spendKey (tweak • curve.generator)

def calculateEcdhSharedSecret (tweakData : G) (scanKey : S) : G :=
  scanKey • tweakData

end SpCurve

/-- A silent payment recipient, with the labels it uses. -/
structure Receiver {S G X : Type} [CommRing S] [AddCommGroup G] [Module S G]
    (curve : SpCurve S G X) where
  scanPubkey : G
  spendPubkey : G
  changeLabel : S
  /-- Labels and their points, each in both directions. -/
  labels : List (S × G)
  points : ∀ entry ∈ labels, entry.2 = entry.1 • curve.generator
  left : (labels.map Prod.fst).Nodup
  right : (labels.map Prod.snd).Nodup
  valid : ∀ entry ∈ labels, entry.2 + spendPubkey ≠ 0

/-- What a scan found: the label, the output key and the key tweak. -/
abbrev Found (S X : Type) := List (Option S × X × S)

def Found.record
    {S X : Type}
    [DecidableEq S] [DecidableEq X]
    (found : Found S X)
    (label : Option S)
    (key : X)
    (tweak : S) : Found S X :=
  found.filter (fun entry => ¬ (entry.1 = label ∧ entry.2.1 = key)) ++
    [(label, key, tweak)]

def Found.get
    {S X : Type}
    [DecidableEq X]
    (found : Found S X)
    (key : X) : Option (Option S × S) :=
  (found.find? (fun entry => entry.2.1 = key)).map
    (fun entry => (entry.1, entry.2.2))

namespace Receiver

variable
    {S G X : Type}
    [CommRing S] [AddCommGroup G] [Module S G]
    {curve : SpCurve S G X}
    (receiver : Receiver curve)

section Scanning

variable [DecidableEq S] [DecidableEq G] [DecidableEq X]

def labelAt (point : G) : Option S :=
  (receiver.labels.find? (fun entry => entry.2 = point)).map Prod.fst

/-- The first output that is paid to a label of ours, next to the output key
`outputKey` of our spend key. -/
def matchLabel
    (outputKey : G) : List X → Except KeyError (Option (S × X))
  | [] => .ok none
  | key :: later => do
      let evenDiff ← SpCurve.combine (curve.even key) (-outputKey)
      let oddDiff ← SpCurve.combine (-curve.even key) (-outputKey)
      match receiver.labelAt evenDiff with
      | some label => pure (some (label, key))
      | none =>
          match receiver.labelAt oddDiff with
          | some label => pure (some (label, key))
          | none => matchLabel outputKey later

/-- The rounds of a scan from index `n`; `none` when `fuel` is too short. -/
def scanFrom
    (secret : G)
    (outputs : List X) :
    Nat → Nat → Found S X → Option (Except KeyError (Found S X))
  | 0, _, _ => none
  | fuel + 1, n, found =>
      match curve.calculateTn secret n with
      | .error reason => some (.error reason)
      | .ok tweak =>
          match curve.calculatePn receiver.spendPubkey tweak with
          | .error reason => some (.error reason)
          | .ok outputKey =>
              if curve.key outputKey ∈ outputs then
                scanFrom secret outputs fuel (n + 1)
                  (found.record none (curve.key outputKey) tweak)
              else
                match receiver.matchLabel outputKey outputs with
                | .error reason => some (.error reason)
                | .ok none => some (.ok found)
                | .ok (some (label, key)) =>
                    match SpCurve.secretKey (tweak + label) with
                    | .error reason => some (.error reason)
                    | .ok labelled =>
                        scanFrom secret outputs fuel (n + 1)
                          (found.record (some label) key labelled)

/-- Scan the outputs of a transaction; an output more than there are rounds
would be found twice. -/
def scanTransaction
    (secret : G)
    (outputs : List X) : Option (Except KeyError (Found S X)) :=
  receiver.scanFrom secret outputs (outputs.length + 1) 0 []

def labelKeys (tweak : S) : List (S × G) → Except KeyError (List X)
  | [] => .ok []
  | (_, point) :: later => do
      let spendKey ← SpCurve.combine point receiver.spendPubkey
      let outputKey ← curve.calculatePn spendKey tweak
      let rest ← labelKeys tweak later
      pure (curve.key outputKey :: rest)

/-- The keys of the outputs that may be ours at index 0. -/
def getSpksFromSharedSecret (secret : G) : Except KeyError (List X) := do
  let tweak ← curve.calculateTn secret 0
  let outputKey ← curve.calculatePn receiver.spendPubkey tweak
  let labelled ← receiver.labelKeys tweak receiver.labels
  pure (curve.key outputKey :: labelled)

end Scanning

variable (curve) in
/-- The tweak of an output at an index, paid under a label. -/
def keyTweak (secret : G) (n : Nat) (label : Option S) : S :=
  curve.sharedSecretHash secret n + label.getD 0

def paidLabels : List (Option S) :=
  none :: receiver.labels.map (fun entry => some entry.1)

def outputPoint (secret : G) (n : Nat) (label : Option S) : G :=
  receiver.spendPubkey + keyTweak curve secret n label • curve.generator

def outputKey (secret : G) (n : Nat) (label : Option S) : X :=
  curve.key (receiver.outputPoint secret n label)

@[simp] theorem key_outputPoint
    (secret : G)
    (n : Nat)
    (label : Option S) :
    curve.key (receiver.outputPoint secret n label) =
      receiver.outputKey secret n label :=
  rfl

/-- The hashes of some shared secrets do not collide up to an index: every key
is that of one secret, one index and one label. -/
structure Spread (secrets : List G) (bound : Nat) : Prop where
  tweak :
    ∀ secret ∈ secrets, ∀ n ≤ bound, ∀ label ∈ receiver.paidLabels,
      keyTweak curve secret n label ≠ 0
  point :
    ∀ secret ∈ secrets, ∀ n ≤ bound, ∀ label ∈ receiver.paidLabels,
      receiver.outputPoint secret n label ≠ 0
  apart :
    ∀ first ∈ secrets, ∀ n ≤ bound, ∀ label ∈ receiver.paidLabels,
      ∀ second ∈ secrets, ∀ m ≤ bound, ∀ other ∈ receiver.paidLabels,
        receiver.outputKey first n label = receiver.outputKey second m other →
          first = second ∧ n = m ∧ label = other

theorem none_mem_paidLabels : none ∈ receiver.paidLabels :=
  List.mem_cons_self

variable {label : S} {n : Nat}

theorem some_mem_paidLabels :
    some label ∈ receiver.paidLabels ↔
      ∃ point, (label, point) ∈ receiver.labels := by
  simp [paidLabels]

theorem outputPoint_some
    (secret : G)
    (n : Nat)
    (label : S) :
    receiver.outputPoint secret n (some label) =
      receiver.outputPoint secret n none + label • curve.generator := by
  simp only [outputPoint, keyTweak, Option.getD_some, Option.getD_none,
    add_zero, add_smul]
  abel

theorem labelAt_iff
    {secret : G}
    {key : X}
    (finite : receiver.outputPoint secret n (some label) ≠ 0) :
    key = receiver.outputKey secret n (some label) ↔
      curve.even key + -receiver.outputPoint secret n none =
          label • curve.generator ∨
        -curve.even key + -receiver.outputPoint secret n none =
          label • curve.generator := by
  unfold outputKey
  rw [outputPoint_some] at finite ⊢
  exact curve.eq_key_add_iff finite

/-- What a scan records of an output at an index. -/
def entryAt
    (secret : G)
    (n : Nat)
    (label : Option S) : Option S × X × S :=
  (label, receiver.outputKey secret n label, keyTweak curve secret n label)

/-- What the outputs pay us at an index of a secret: its unlabelled key, or
without that one the first key of a label. -/
def Pays
    (secret : G)
    (outputs : List X)
    (n : Nat) : Option S → Prop
  | none => receiver.outputKey secret n none ∈ outputs
  | some label =>
      some label ∈ receiver.paidLabels ∧
        receiver.outputKey secret n none ∉ outputs ∧
        ∃ before after,
          outputs =
              before ++ receiver.outputKey secret n (some label) :: after ∧
            ∀ other ∈ receiver.paidLabels,
              receiver.outputKey secret n other ∉ before

theorem Pays.mem
    {receiver : Receiver curve}
    {secret : G}
    {outputs : List X}
    {label : Option S}
    (pays : receiver.Pays secret outputs n label) :
    label ∈ receiver.paidLabels ∧
      receiver.outputKey secret n label ∈ outputs := by
  cases label with
  | none =>
      exact ⟨receiver.none_mem_paidLabels, pays⟩
  | some label =>
      obtain ⟨ours, _, before, after, split, _⟩ := pays
      refine ⟨ours, ?_⟩
      rw [split]
      simp

theorem Pays.unique
    {receiver : Receiver curve}
    {secret : G}
    {outputs : List X}
    {label other : Option S}
    (pays : receiver.Pays secret outputs n label)
    (pays' : receiver.Pays secret outputs n other) :
    receiver.outputKey secret n label = receiver.outputKey secret n other := by
  cases label with
  | none =>
      cases other with
      | none =>
          rfl
      | some other =>
          exact absurd pays pays'.2.1
  | some label =>
      cases other with
      | none =>
          exact absurd pays' pays.2.1
      | some other =>
          obtain ⟨ours, _, before, after, split, fresh⟩ := pays
          obtain ⟨ours', _, before', after', split', fresh'⟩ := pays'
          rw [split] at split'
          rcases List.append_eq_append_iff.mp split' with
            ⟨between, longer, rest⟩ | ⟨between, longer, rest⟩
          · cases between with
            | nil =>
                exact (List.cons.inj rest).1
            | cons first later =>
                refine absurd ?_ (fresh' (some label) ours)
                rw [longer, (List.cons.inj rest).1]
                simp
          · cases between with
            | nil =>
                exact (List.cons.inj rest).1.symm
            | cons first later =>
                refine absurd ?_ (fresh (some other) ours')
                rw [longer, (List.cons.inj rest).1]
                simp

/-- The outputs pay us at every index before this one. -/
def Reaches
    (secret : G)
    (outputs : List X)
    (n : Nat) : Prop :=
  ∀ m < n, ∃ label ∈ receiver.paidLabels,
    receiver.outputKey secret m label ∈ outputs

/-- Each entry is what the outputs pay us at its own index. -/
def Indexed
    (secret : G)
    (outputs : List X)
    (found : Found S X) : Prop :=
  ∀ n entry, found[n]? = some entry →
    ∃ label, receiver.Pays secret outputs n label ∧
      entry = receiver.entryAt secret n label

section Distinct

variable {receiver} {secrets : List G} {bound : Nat}
variable (spread : receiver.Spread secrets bound)
variable {secret : G} (known : secret ∈ secrets)
variable {outputs : List X}

include spread known

theorem Indexed.nodup
    {found : Found S X}
    (indexed : receiver.Indexed secret outputs found)
    (short : found.length ≤ bound + 1) :
    (found.map (fun entry => entry.2.1)).Nodup := by
  rw [List.nodup_iff_getElem?_ne_getElem?]
  intro first second before within same
  rw [List.length_map] at within
  simp only [List.getElem?_map] at same
  have low : first < found.length := Nat.lt_trans before within
  rw [List.getElem?_eq_getElem low, List.getElem?_eq_getElem within] at same
  obtain ⟨label, pays, own⟩ :=
    indexed first _ (List.getElem?_eq_getElem low)
  obtain ⟨other, pays', its⟩ :=
    indexed second _ (List.getElem?_eq_getElem within)
  rw [own, its] at same
  have equal :=
    spread.apart secret known first (by omega) label pays.mem.1 secret known
      second (by omega) other pays'.mem.1 (Option.some.inj same)
  omega

theorem Indexed.length_le
    {found : Found S X}
    (indexed : receiver.Indexed secret outputs found)
    (short : found.length ≤ bound + 1) :
    found.length ≤ outputs.length := by
  have distinct := indexed.nodup spread known short
  have listed :
      (found.map (fun entry => entry.2.1)).Subperm outputs := by
    refine distinct.subperm ?_
    intro key member
    obtain ⟨entry, inside, rfl⟩ := List.mem_map.mp member
    obtain ⟨n, within, rfl⟩ := List.mem_iff_getElem.mp inside
    obtain ⟨_, pays, own⟩ :=
      indexed n _ (List.getElem?_eq_getElem within)
    rw [own]
    exact pays.mem.2
  simpa using listed.length_le

end Distinct

section Scan

variable [DecidableEq G]

variable {point : G}

theorem labelAt_some
    (found : receiver.labelAt point = some label) :
    some label ∈ receiver.paidLabels ∧ point = label • curve.generator := by
  obtain ⟨entry, listed, rfl⟩ := Option.map_eq_some_iff.mp found
  have member := List.mem_of_find?_eq_some listed
  have same := List.find?_some listed
  rw [decide_eq_true_eq] at same
  refine ⟨receiver.some_mem_paidLabels.mpr ⟨entry.2, member⟩, ?_⟩
  rw [← same]
  exact receiver.points entry member

theorem labelAt_none
    (nothing : receiver.labelAt point = none)
    (ours : some label ∈ receiver.paidLabels) :
    point ≠ label • curve.generator := by
  rintro rfl
  obtain ⟨point, listed⟩ := receiver.some_mem_paidLabels.mp ours
  have here := receiver.points _ listed
  rw [labelAt, Option.map_eq_none_iff, List.find?_eq_none] at nothing
  exact nothing _ listed (by simpa using here)

variable {receiver} {secrets : List G} {bound : Nat}
variable (spread : receiver.Spread secrets bound)
variable {secret : G} (known : secret ∈ secrets)

include spread known

/-- The match next to the unlabelled key of an index finds the first output
paid to a label at that index. -/
theorem matchLabel_spec
    (within : n ≤ bound)
    {outputs : List X}
    (unlabelled : receiver.outputKey secret n none ∉ outputs) :
    (receiver.matchLabel (receiver.outputPoint secret n none) outputs =
        .ok none ∧
      ∀ label ∈ receiver.paidLabels,
        receiver.outputKey secret n label ∉ outputs) ∨
      ∃ label key,
        receiver.matchLabel (receiver.outputPoint secret n none) outputs =
            .ok (some (label, key)) ∧
          receiver.Pays secret outputs n (some label) ∧
          key = receiver.outputKey secret n (some label) := by
  have finite :=
    spread.point secret known n within none receiver.none_mem_paidLabels
  induction outputs with
  | nil =>
      exact Or.inl ⟨rfl, fun _ _ => by simp⟩
  | cons first later inductionHypothesis =>
      have atHead :
          ∀ label, some label ∈ receiver.paidLabels →
            first = receiver.outputKey secret n (some label) →
            receiver.Pays secret (first :: later) n (some label) := by
        intro label ours own
        exact ⟨ours, unlabelled, [], later, by rw [own]; rfl,
          fun _ _ => by simp⟩
      rw [List.mem_cons, not_or] at unlabelled
      obtain ⟨even, odd⟩ :=
        curve.even_add_neg_ne_zero finite (Ne.symm unlabelled.1)
      -- A label at either difference is the label the output is paid under.
      have labelled :
          ∀ label, some label ∈ receiver.paidLabels →
            (first = receiver.outputKey secret n (some label) ↔
              curve.even first + -receiver.outputPoint secret n none =
                  label • curve.generator ∨
                -curve.even first + -receiver.outputPoint secret n none =
                  label • curve.generator) :=
        fun label ours =>
          receiver.labelAt_iff (spread.point secret known n within _ ours)
      rw [matchLabel, SpCurve.combine, SpCurve.combine, if_neg even,
        if_neg odd]
      dsimp only [bind, Except.bind, pure, Except.pure]
      cases atEven :
          receiver.labelAt
            (curve.even first + -receiver.outputPoint secret n none) with
      | some label =>
          obtain ⟨ours, same⟩ := receiver.labelAt_some atEven
          have own := (labelled label ours).mpr (Or.inl same)
          exact Or.inr ⟨label, first, rfl, atHead label ours own, own⟩
      | none =>
          dsimp only
          cases atOdd :
              receiver.labelAt
                (-curve.even first + -receiver.outputPoint secret n none) with
          | some label =>
              obtain ⟨ours, same⟩ := receiver.labelAt_some atOdd
              have own := (labelled label ours).mpr (Or.inr same)
              exact Or.inr ⟨label, first, rfl, atHead label ours own, own⟩
          | none =>
              dsimp only
              have other :
                  ∀ label ∈ receiver.paidLabels,
                    receiver.outputKey secret n label ≠ first := by
                intro label ours same
                cases label with
                | none =>
                    exact unlabelled.1 same
                | some label =>
                    rcases (labelled label ours).mp same.symm with at_ | at_
                    · exact receiver.labelAt_none atEven ours at_
                    · exact receiver.labelAt_none atOdd ours at_
              rcases inductionHypothesis unlabelled.2 with
                ⟨returned, nothing⟩ | ⟨label, key, returned, pays, own⟩
              · refine Or.inl ⟨returned, fun label ours => ?_⟩
                rw [List.mem_cons, not_or]
                exact ⟨other label ours, nothing label ours⟩
              · refine Or.inr ⟨label, key, returned, ?_, own⟩
                obtain ⟨ours, _, before, after, split, fresh⟩ := pays
                refine ⟨ours, ?_, first :: before, after, by rw [split]; rfl,
                  fun label ours => ?_⟩
                · rw [List.mem_cons, not_or]
                  exact unlabelled
                · rw [List.mem_cons, not_or]
                  exact ⟨other label ours, fresh label ours⟩

variable {outputs : List X} [DecidableEq S] [DecidableEq X]

omit [DecidableEq G] [DecidableEq X] in
theorem calculateTn_eq
    (within : n ≤ bound) :
    curve.calculateTn secret n = .ok (keyTweak curve secret n none) := by
  have bare :
      curve.sharedSecretHash secret n = keyTweak curve secret n none := by
    rw [keyTweak, Option.getD_none, add_zero]
  rw [SpCurve.calculateTn, SpCurve.secretKey, bare, if_neg]
  exact spread.tweak secret known n within none receiver.none_mem_paidLabels

omit [DecidableEq S] [DecidableEq X] in
theorem calculatePn_eq
    (within : n ≤ bound) :
    curve.calculatePn receiver.spendPubkey (keyTweak curve secret n none) =
      .ok (receiver.outputPoint secret n none) := by
  rw [SpCurve.calculatePn, SpCurve.combine, if_neg]
  · rfl
  · exact spread.point secret known n within none receiver.none_mem_paidLabels

omit [DecidableEq G] in
theorem Indexed.record
    {found : Found S X}
    (indexed : receiver.Indexed secret outputs found)
    (short : found.length ≤ bound)
    {label : Option S}
    (pays : receiver.Pays secret outputs found.length label) :
    found.record label (receiver.outputKey secret found.length label)
          (keyTweak curve secret found.length label) =
        found ++ [receiver.entryAt secret found.length label] ∧
      receiver.Indexed secret outputs
        (found ++ [receiver.entryAt secret found.length label]) := by
  constructor
  · unfold Found.record
    have kept :
        found.filter (fun entry =>
            ¬ (entry.1 = label ∧
              entry.2.1 = receiver.outputKey secret found.length label)) =
          found := by
      rw [List.filter_eq_self]
      intro entry member
      obtain ⟨n, within, rfl⟩ := List.mem_iff_getElem.mp member
      obtain ⟨other, pays', own⟩ :=
        indexed n _ (List.getElem?_eq_getElem within)
      rw [decide_eq_true_eq, own]
      rintro ⟨_, same⟩
      have equal :=
        spread.apart secret known n (by omega) other pays'.mem.1 secret known
          found.length short label pays.mem.1 same
      omega
    rw [kept]
    rfl
  · intro n entry at_
    by_cases before : n < found.length
    · rw [List.getElem?_append_left before] at at_
      exact indexed n entry at_
    · rw [List.getElem?_append_right (by omega)] at at_
      have here : n = found.length := by
        by_contra later
        rw [List.getElem?_eq_none (by simp; omega)] at at_
        cases at_
      rw [here, Nat.sub_self] at at_
      cases at_
      rw [here]
      exact ⟨label, pays, rfl⟩

omit [DecidableEq S] [DecidableEq X] in
theorem labelKeys_spec
    {labels : List (S × G)}
    (ours : ∀ entry ∈ labels, entry ∈ receiver.labels) :
    receiver.labelKeys (keyTweak curve secret 0 none) labels =
      .ok (labels.map fun entry =>
        receiver.outputKey secret 0 (some entry.1)) := by
  induction labels with
  | nil =>
      rfl
  | cons entry later inductionHypothesis =>
      have listed := ours entry List.mem_cons_self
      have finite :=
        spread.point secret known 0 (Nat.zero_le _) (some entry.1)
          (receiver.some_mem_paidLabels.mpr ⟨entry.2, listed⟩)
      have shifted :
          entry.2 + receiver.spendPubkey +
              keyTweak curve secret 0 none • curve.generator =
            receiver.outputPoint secret 0 (some entry.1) := by
        rw [receiver.outputPoint_some, receiver.points entry listed,
          outputPoint]
        abel
      rw [labelKeys, SpCurve.combine, if_neg (receiver.valid entry listed)]
      dsimp only [bind, Except.bind]
      rw [SpCurve.calculatePn, SpCurve.combine, shifted, if_neg finite]
      dsimp only
      rw [inductionHypothesis
        (fun other member => ours other (List.mem_cons_of_mem _ member))]
      rfl

omit [DecidableEq X] in
theorem getSpksFromSharedSecret_spec :
    receiver.getSpksFromSharedSecret secret =
      .ok (receiver.paidLabels.map (receiver.outputKey secret 0)) := by
  rw [getSpksFromSharedSecret, calculateTn_eq spread known (Nat.zero_le _)]
  dsimp only [bind, Except.bind]
  rw [calculatePn_eq spread known (Nat.zero_le _)]
  dsimp only
  rw [labelKeys_spec spread known (fun _ listed => listed)]
  simp [paidLabels, pure, Except.pure]

/-- A scan that began with the entries of its first indices goes on to the
first index at which no output is paid to us. -/
theorem scanFrom_spec
    (few : outputs.length ≤ bound)
    (fuel : Nat)
    {found : Found S X}
    (indexed : receiver.Indexed secret outputs found)
    (short : found.length ≤ bound + 1)
    (enough : outputs.length < found.length + fuel) :
    ∃ all,
      receiver.scanFrom secret outputs fuel found.length found =
          some (.ok all) ∧
        receiver.Indexed secret outputs all ∧
        all.length ≤ outputs.length ∧
        ∀ label ∈ receiver.paidLabels,
          receiver.outputKey secret all.length label ∉ outputs := by
  have fits := indexed.length_le spread known short
  induction fuel generalizing found with
  | zero =>
      omega
  | succ fuel inductionHypothesis =>
      have within : found.length ≤ bound := by omega
      -- One more entry, and the rounds from the next index on.
      have next :
          ∀ label,
            receiver.Pays secret outputs found.length label →
            ∃ all,
              receiver.scanFrom secret outputs fuel (found.length + 1)
                  (found.record label
                    (receiver.outputKey secret found.length label)
                    (keyTweak curve secret found.length label)) =
                some (.ok all) ∧
              receiver.Indexed secret outputs all ∧
              all.length ≤ outputs.length ∧
              ∀ label ∈ receiver.paidLabels,
                receiver.outputKey secret all.length label ∉ outputs := by
        intro label pays
        obtain ⟨appended, further⟩ :=
          indexed.record spread known within pays
        have longer :
            (found ++ [receiver.entryAt secret found.length label]).length =
              found.length + 1 := by
          simp
        have room := further.length_le spread known (by omega)
        rw [appended, ← longer]
        exact inductionHypothesis further (by omega) (by omega) room
      rw [scanFrom, calculateTn_eq spread known within]
      dsimp only
      rw [calculatePn_eq spread known within]
      dsimp only
      rw [key_outputPoint]
      by_cases unlabelled :
          receiver.outputKey secret found.length none ∈ outputs
      · rw [if_pos unlabelled]
        exact next none unlabelled
      · rw [if_neg unlabelled]
        rcases matchLabel_spec spread known within unlabelled with
          ⟨returned, nothing⟩ | ⟨label, key, returned, pays, rfl⟩
        · rw [returned]
          exact ⟨found, rfl, indexed, fits, nothing⟩
        · have labelled :=
            spread.tweak secret known found.length within (some label)
              pays.mem.1
          have sum :
              keyTweak curve secret found.length none + label =
                keyTweak curve secret found.length (some label) := by
            simp [keyTweak]
          rw [returned]
          dsimp only
          rw [sum, SpCurve.secretKey, if_neg labelled]
          exact next (some label) pays

/-- A scan finds the entry of each index up to the first one at which no output
is paid to us. -/
theorem scanTransaction_spec
    (few : outputs.length ≤ bound) :
    ∃ found,
      receiver.scanTransaction secret outputs = some (.ok found) ∧
        receiver.Indexed secret outputs found ∧
        found.length ≤ outputs.length ∧
        ∀ label ∈ receiver.paidLabels,
          receiver.outputKey secret found.length label ∉ outputs := by
  have nothing : receiver.Indexed secret outputs [] := by
    intro n entry impossible
    simp at impossible
  exact scanFrom_spec spread known few (outputs.length + 1) nothing
    (Nat.zero_le _) (by simp)

theorem scanTransaction_get
    (few : outputs.length ≤ bound) :
    ∃ found,
      receiver.scanTransaction secret outputs = some (.ok found) ∧
        ∀ key label tweak,
          found.get key = some (label, tweak) ↔
            ∃ n, receiver.Reaches secret outputs n ∧
              receiver.Pays secret outputs n label ∧
              (label, key, tweak) = receiver.entryAt secret n label := by
  obtain ⟨found, returned, indexed, short, stops⟩ :=
    scanTransaction_spec spread known few
  refine ⟨found, returned, fun key label tweak => ?_⟩
  unfold Found.get
  constructor
  · intro got
    obtain ⟨entry, at_, same⟩ := Option.map_eq_some_iff.mp got
    have named := List.find?_some at_
    rw [decide_eq_true_eq] at named
    obtain ⟨n, within, rfl⟩ :=
      List.mem_iff_getElem.mp (List.mem_of_find?_eq_some at_)
    obtain ⟨other, pays, own⟩ :=
      indexed n _ (List.getElem?_eq_getElem within)
    rw [own] at same named
    cases same
    refine ⟨n, fun m before => ?_, pays, by rw [← named]; rfl⟩
    obtain ⟨earlier, pays', _⟩ :=
      indexed m _ (List.getElem?_eq_getElem (Nat.lt_trans before within))
    exact ⟨earlier, pays'.mem⟩
  · rintro ⟨n, reaches, pays, own⟩
    -- The scan does not stop before the index.
    have within : n < found.length := by
      by_contra outside
      rcases Nat.lt_or_eq_of_le (Nat.le_of_not_lt outside) with before | here
      · obtain ⟨other, ours, listed⟩ := reaches found.length before
        exact stops other ours listed
      · rw [here] at stops
        exact stops label pays.mem.1 pays.mem.2
    have key_ : key = receiver.outputKey secret n label :=
      congrArg (fun entry => entry.2.1) own
    obtain ⟨first, at_⟩ : ∃ first,
        found.find? (fun entry => entry.2.1 = key) = some first := by
      rw [← Option.isSome_iff_exists, List.find?_isSome]
      obtain ⟨other, pays', its⟩ :=
        indexed n _ (List.getElem?_eq_getElem within)
      refine ⟨found[n], List.getElem_mem within, ?_⟩
      rw [decide_eq_true_eq, its, key_]
      exact pays'.unique pays
    have named := List.find?_some at_
    rw [decide_eq_true_eq, key_] at named
    obtain ⟨m, low, rfl⟩ :=
      List.mem_iff_getElem.mp (List.mem_of_find?_eq_some at_)
    obtain ⟨other, pays', its⟩ := indexed m _ (List.getElem?_eq_getElem low)
    rw [its] at named
    obtain ⟨_, rfl, rfl⟩ :=
      spread.apart secret known m (by omega) other pays'.mem.1 secret known n
        (by omega) label pays.mem.1 named
    rw [at_, Option.map_some, its, ← own]

end Scan

end Receiver

end Bwk
