import Bwk.SpReceiving
import Bwk.SpStores

set_option linter.unusedSectionVars false

namespace Bwk

/-!
# Finding the outputs of a block

`candidate_match` and `derive_owned` of `sp/src/scan/mod.rs`: a block is tested
with the output keys at index 0 of its tweaks, and in a block that matches the
shared secret of a transaction is the one under which its first candidate
output was derived.  The block filter, the native derivation and the backend's
listing come from outside.
-/

inductive OutputScript (X : Type) where
  | taproot (key : X)
  /-- A taproot output whose 32 bytes are no x-only key. -/
  | invalidTaproot (bytes : Nat)
  | other (bytes : Nat)
  deriving Repr, DecidableEq

namespace OutputScript

def isP2tr {X : Type} : OutputScript X → Bool
  | .taproot _ | .invalidTaproot _ => true
  | .other _ => false

def key? {X : Type} : OutputScript X → Option X
  | .taproot key => some key
  | .invalidTaproot _ | .other _ => none

theorem key?_eq_some
    {X : Type}
    {script : OutputScript X}
    {key : X} :
    script.key? = some key ↔ script = .taproot key := by
  cases script with
  | taproot key | invalidTaproot bytes | other bytes =>
      simp [key?]

theorem key?_eq_none
    {X : Type}
    {script : OutputScript X}
    (other : script.isP2tr = false) :
    script.key? = none := by
  cases script with
  | taproot key | invalidTaproot bytes =>
      cases other
  | other bytes =>
      rfl

end OutputScript

/-- An output as the backend lists it. -/
structure UtxoData (X : Type) where
  txid : Txid
  vout : Nat
  value : Nat
  scriptpubkey : OutputScript X
  spent : Bool
  deriving Repr, DecidableEq

namespace UtxoData

def outpoint {X : Type} (utxo : UtxoData X) : OutPoint :=
  ⟨utxo.txid, utxo.vout⟩

theorem filterMap_isP2tr
    {X β : Type}
    {read : UtxoData X → Option β}
    (taproot :
      ∀ utxo, utxo.scriptpubkey.isP2tr = false → read utxo = none)
    (utxos : List (UtxoData X)) :
    (utxos.filter (fun utxo => utxo.scriptpubkey.isP2tr)).filterMap read =
      utxos.filterMap read := by
  rw [List.filterMap_filter]
  refine List.filterMap_congr (fun utxo _ => ?_)
  cases script : utxo.scriptpubkey.isP2tr with
  | true =>
      rfl
  | false =>
      exact (taproot utxo script).symm

end UtxoData

/-- An output of ours, with the label it is paid under. -/
structure OwnedUtxo (S X : Type) where
  blockheight : Option Nat
  tweak : S
  amount : Nat
  script : OutputScript X
  label : Option S
  spendStatus : OutputSpendStatus
  deriving Repr, DecidableEq

/-- What a scan is given of a block. -/
structure BlockData (G X : Type) where
  height : Nat
  tweaks : List G
  /-- The filter of the block's new outputs, asked for any of some keys. -/
  matchAny : List X → Bool
  /-- The outputs the backend lists. -/
  utxos : List (UtxoData X)

/-- A list cut into pieces of `size`, in `fuel` pieces at most. -/
def chunks {α : Type} (size : Nat) : Nat → List α → List (List α)
  | 0, _ => []
  | _ + 1, [] => []
  | fuel + 1, list => list.take size :: chunks size fuel (list.drop size)

namespace Receiver

variable
    {S G X : Type}
    [CommRing S] [AddCommGroup G] [Module S G]
    [DecidableEq S] [DecidableEq G] [DecidableEq X]
    {curve : SpCurve S G X}
    (receiver : Receiver curve)
    (scanKey : S)

/-- The candidate keys of a batch of tweaks. -/
def candidateRows : List G → Except KeyError (List X)
  | [] => .ok []
  | tweak :: later => do
      let row ←
        receiver.getSpksFromSharedSecret
          (SpCurve.calculateEcdhSharedSecret tweak scanKey)
      let rows ← candidateRows later
      pure (row ++ rows)

/-- The candidate keys of some batches, each derived natively. -/
def batchRows
    (native : List G → Except KeyError (List X)) :
    List (List G) → Except KeyError (List X)
  | [] => .ok []
  | chunk :: later => do
      let row ← native chunk
      let rows ← batchRows native later
      pure (row ++ rows)

def candidateSpks
    (native : List G → Except KeyError (List X))
    (chunkSize : Nat)
    (tweaks : List G) : Except KeyError (List X) :=
  batchRows native (chunks chunkSize tweaks.length tweaks)

/-- Whether a block may pay us. -/
def candidateMatch
    (native : List G → Except KeyError (List X))
    (chunkSize : Nat)
    (block : BlockData G X) : Except KeyError Bool :=
  if block.tweaks.isEmpty then
    .ok false
  else do
    let keys ← candidateSpks native chunkSize block.tweaks
    pure (if keys.isEmpty then false else block.matchAny keys)

/-- The candidates of each tweak with its shared secret, in the order in which
they are stored. -/
def scriptToSecretMap : List G → Except KeyError (List (X × G))
  | [] => .ok []
  | tweak :: later => do
      let secret := SpCurve.calculateEcdhSharedSecret tweak scanKey
      let row ← receiver.getSpksFromSharedSecret secret
      let rows ← scriptToSecretMap later
      pure (row.map (fun key => (key, secret)) ++ rows)

def storedSecret (secrets : List (X × G)) (key : X) : Option G :=
  (secrets.reverse.find? (fun entry => entry.1 = key)).map Prod.snd

/-- The shared secret of the first output that has one. -/
def firstSecret
    (secrets : List (X × G))
    (utxos : List (UtxoData X)) : Option G :=
  utxos.findSome? (fun utxo =>
    utxo.scriptpubkey.key?.bind (storedSecret secrets))

def outputKeys : List (UtxoData X) → Except KeyError (List X)
  | [] => .ok []
  | utxo :: later =>
      match utxo.scriptpubkey with
      | .taproot key => do
          let keys ← outputKeys later
          pure (key :: keys)
      | .invalidTaproot _ => .error .invalidXOnlyKey
      | .other _ => outputKeys later

/-- An unspent output that was found, with its label and its tweak. -/
def report
    (found : Found S X)
    (utxo : UtxoData X) : Option (Option S × UtxoData X × S) :=
  if utxo.spent then
    none
  else
    utxo.scriptpubkey.key?.bind (fun key =>
      (found.get key).map (fun entry => (entry.1, utxo, entry.2)))

/-- What a transaction's listed outputs pay us. -/
def scanGroup
    (secrets : List (X × G))
    (utxos : List (UtxoData X)) :
    Option (Except KeyError (List (Option S × UtxoData X × S))) :=
  match firstSecret secrets utxos with
  | none => some (.ok [])
  | some secret =>
      match outputKeys utxos with
      | .error reason => some (.error reason)
      | .ok keys =>
          (receiver.scanTransaction secret keys).map (fun result =>
            result.map (fun found => utxos.filterMap (report found)))

/-- The outputs listed for a transaction. -/
def listedFor (utxos : List (UtxoData X)) (txid : Txid) : List (UtxoData X) :=
  utxos.filter (fun utxo => utxo.txid = txid)

/-- What the listed outputs of some transactions pay us. -/
def scanGroups
    (secrets : List (X × G))
    (utxos : List (UtxoData X)) :
    List Txid →
      Option (Except KeyError (List (Option S × UtxoData X × S)))
  | [] => some (.ok [])
  | txid :: later =>
      match receiver.scanGroup secrets (listedFor utxos txid) with
      | none => none
      | some (.error reason) => some (.error reason)
      | some (.ok here) =>
          (scanGroups secrets utxos later).map (fun result =>
            result.map (fun rest => here ++ rest))

/-- What the listed outputs of a block pay us, transaction by transaction. -/
def scanUtxos
    (secrets : List (X × G))
    (utxos : List (UtxoData X)) :
    Option (Except KeyError (List (Option S × UtxoData X × S))) :=
  receiver.scanGroups secrets utxos
    (utxos.map (fun utxo => utxo.txid)).dedup

def owned
    (height : Nat)
    (found : Option S × UtxoData X × S) : OutPoint × OwnedUtxo S X :=
  (found.2.1.outpoint,
    { blockheight := some height
      tweak := found.2.2
      amount := found.2.1.value
      script := found.2.1.scriptpubkey
      label := found.1
      spendStatus := .unspent })

def deriveOwned
    (block : BlockData G X) :
    Option (Except KeyError (BTreeMap OutPoint (OwnedUtxo S X))) :=
  match receiver.scriptToSecretMap scanKey block.tweaks with
  | .error reason => some (.error reason)
  | .ok secrets =>
      (receiver.scanUtxos secrets block.utxos).map (fun result =>
        result.map (fun found =>
          BTreeMap.insertAll ∅ (found.map (owned block.height))))

/-- The outputs a block pays us, as the pipeline finds them. -/
def blockOutputs
    (native : List G → Except KeyError (List X))
    (chunkSize : Nat)
    (block : BlockData G X) :
    Option (Except KeyError (BTreeMap OutPoint (OwnedUtxo S X))) :=
  match candidateMatch native chunkSize block with
  | .error reason => some (.error reason)
  | .ok false => some (.ok ∅)
  | .ok true => receiver.deriveOwned scanKey block

end Receiver

structure BlockTx (G X : Type) where
  txid : Txid
  /-- The tweak data of its inputs. -/
  tweak : G
  outputs : List (UtxoData X)

namespace BlockTx

variable {S G X : Type} [CommRing S] [AddCommGroup G] [Module S G]

/-- The shared secret of a transaction. -/
def secret (tx : BlockTx G X) (scanKey : S) : G :=
  SpCurve.calculateEcdhSharedSecret tx.tweak scanKey

/-- The keys of a transaction's taproot outputs. -/
def keys (tx : BlockTx G X) : List X :=
  tx.outputs.filterMap (fun utxo => utxo.scriptpubkey.key?)

end BlockTx

namespace Receiver

variable
    {S G X : Type}
    [CommRing S] [AddCommGroup G] [Module S G]
    [DecidableEq S] [DecidableEq G] [DecidableEq X]
    {curve : SpCurve S G X}
    (receiver : Receiver curve)
    (scanKey : S)

def Candidate (secret : G) (key : X) : Prop :=
  ∃ label ∈ receiver.paidLabels, key = receiver.outputKey secret 0 label

/-- An output is one that a transaction of the block may pay us. -/
def Hit (txs : List (BlockTx G X)) (utxo : UtxoData X) : Prop :=
  ∃ tx ∈ txs, ∃ key, utxo.scriptpubkey.key? = some key ∧
    receiver.Candidate (tx.secret scanKey) key

/--
What a scan is given describes the block: the tweaks of its transactions, a
filter that misses no output, and a listing that has every taproot output of a
transaction with a candidate.
-/
structure Describes
    (txs : List (BlockTx G X))
    (block : BlockData G X) : Prop where
  tweaks : block.tweaks = txs.map (fun tx => tx.tweak)
  txids : (txs.map (fun tx => tx.txid)).Nodup
  vouts : ∀ tx ∈ txs, (tx.outputs.map (fun utxo => utxo.vout)).Nodup
  named : ∀ tx ∈ txs, ∀ utxo ∈ tx.outputs, utxo.txid = tx.txid
  filtered :
    ∀ keys : List X,
      (∃ tx ∈ txs, ∃ utxo ∈ tx.outputs, ∃ key ∈ keys,
        utxo.scriptpubkey = .taproot key) →
      block.matchAny keys = true
  listed : ∀ utxo ∈ block.utxos, ∃ tx ∈ txs, utxo ∈ tx.outputs
  complete :
    ∀ tx ∈ txs, (∃ utxo ∈ tx.outputs, receiver.Hit scanKey txs utxo) →
      (listedFor block.utxos tx.txid).filter (fun utxo =>
          utxo.scriptpubkey.isP2tr) =
        tx.outputs.filter (fun utxo => utxo.scriptpubkey.isP2tr)

/-- A scan of a transaction under a secret finds an output. -/
def Finds
    (secret : G)
    (tx : BlockTx G X)
    (utxo : UtxoData X)
    (label : Option S)
    (tweak : S) : Prop :=
  ∃ key found, utxo.scriptpubkey = .taproot key ∧
    receiver.scanTransaction secret tx.keys = some (.ok found) ∧
    found.get key = some (label, tweak)

/-- An unspent output that a full scan finds: that of each transaction under
its own secret. -/
def FullFinds
    (txs : List (BlockTx G X))
    (height : Nat)
    (outpoint : OutPoint)
    (output : OwnedUtxo S X) : Prop :=
  ∃ tx ∈ txs, ∃ utxo ∈ tx.outputs, ∃ label tweak,
    utxo.spent = false ∧
      receiver.Finds (tx.secret scanKey) tx utxo label tweak ∧
      (outpoint, output) = owned height (label, utxo, tweak)

/-- An unspent output of a transaction is paid at an index that a secret's
output keys reach. -/
def PaysUnspent
    (secret : G)
    (tx : BlockTx G X) : Prop :=
  ∃ utxo ∈ tx.outputs, utxo.spent = false ∧
    ∃ n label, receiver.Reaches secret tx.keys n ∧
      receiver.Pays secret tx.keys n label ∧
      utxo.scriptpubkey = .taproot (receiver.outputKey secret n label)

/--
In a transaction with a candidate, every taproot output has a valid key, and the
first candidate among the outputs is one of the transaction's own secret,
unless neither that candidate's secret nor its own pays us anything unspent
there.
-/
def OwnCandidates
    (txs : List (BlockTx G X)) : Prop :=
  ∀ tx ∈ txs, ∀ before utxo after key,
    tx.outputs = before ++ utxo :: after →
    (∀ earlier ∈ before, ¬ receiver.Hit scanKey txs earlier) →
    utxo.scriptpubkey = .taproot key →
    ∀ other ∈ txs, receiver.Candidate (other.secret scanKey) key →
      (∀ output ∈ tx.outputs, ∀ bytes,
          output.scriptpubkey ≠ .invalidTaproot bytes) ∧
        (receiver.Candidate (tx.secret scanKey) key ∨
          ¬ receiver.PaysUnspent (other.secret scanKey) tx ∧
            ¬ receiver.PaysUnspent (tx.secret scanKey) tx)

/-- The pipeline reports what a full scan finds, and nothing else. -/
def ReportsExactly
    (txs : List (BlockTx G X))
    (native : List G → Except KeyError (List X))
    (chunkSize : Nat)
    (block : BlockData G X) : Prop :=
  ∃ map,
    receiver.blockOutputs scanKey native chunkSize block = some (.ok map) ∧
      ∀ outpoint output,
        map[outpoint]? = some output ↔
          receiver.FullFinds scanKey txs block.height outpoint output

section Candidates

variable {receiver} {scanKey}
variable {secrets : List G} {bound : Nat}
variable (spread : receiver.Spread secrets bound)

def row (receiver : Receiver curve) (scanKey : S) (tweak : G) : List X :=
  receiver.paidLabels.map
    (receiver.outputKey
      (SpCurve.calculateEcdhSharedSecret tweak scanKey) 0)

theorem flatten_chunks
    {α : Type}
    {size : Nat}
    (positive : 0 < size)
    (fuel : Nat)
    (list : List α)
    (enough : list.length ≤ fuel) :
    (chunks size fuel list).flatten = list := by
  induction fuel generalizing list with
  | zero =>
      rw [List.length_eq_zero_iff.mp (Nat.le_zero.mp enough)]
      rfl
  | succ fuel inductionHypothesis =>
      cases list with
      | nil =>
          rfl
      | cons first later =>
          have shorter : ((first :: later).drop size).length ≤ fuel := by
            rw [List.length_drop]
            omega
          rw [chunks, List.flatten_cons, inductionHypothesis _ shorter,
            List.take_append_drop]
          simp

include spread

theorem candidateRows_eq
    {tweaks : List G}
    (known :
      ∀ tweak ∈ tweaks,
        SpCurve.calculateEcdhSharedSecret tweak scanKey ∈ secrets) :
    receiver.candidateRows scanKey tweaks =
      .ok (tweaks.flatMap (row receiver scanKey)) := by
  induction tweaks with
  | nil =>
      rfl
  | cons tweak later inductionHypothesis =>
      rw [candidateRows,
        getSpksFromSharedSecret_spec spread (known tweak List.mem_cons_self)]
      dsimp only [bind, Except.bind]
      rw [inductionHypothesis
        (fun other member => known other (List.mem_cons_of_mem _ member))]
      rfl

theorem batchRows_eq
    {native : List G → Except KeyError (List X)}
    (same : ∀ chunk, native chunk = receiver.candidateRows scanKey chunk)
    {batches : List (List G)}
    (known :
      ∀ tweak ∈ batches.flatten,
        SpCurve.calculateEcdhSharedSecret tweak scanKey ∈ secrets) :
    batchRows native batches =
      .ok (batches.flatten.flatMap (row receiver scanKey)) := by
  induction batches with
  | nil =>
      rfl
  | cons chunk later inductionHypothesis =>
      rw [List.flatten_cons] at known
      rw [batchRows, same,
        candidateRows_eq spread
          (fun tweak member => known tweak (List.mem_append_left _ member))]
      dsimp only [bind, Except.bind]
      rw [inductionHypothesis
        (fun tweak member => known tweak (List.mem_append_right _ member))]
      dsimp only [pure, Except.pure]
      rw [List.flatten_cons, List.flatMap_append]

theorem scriptToSecretMap_eq
    {tweaks : List G}
    (known :
      ∀ tweak ∈ tweaks,
        SpCurve.calculateEcdhSharedSecret tweak scanKey ∈ secrets) :
    receiver.scriptToSecretMap scanKey tweaks =
      .ok (tweaks.flatMap (fun tweak =>
        (row receiver scanKey tweak).map (fun key =>
          (key, SpCurve.calculateEcdhSharedSecret tweak scanKey)))) := by
  induction tweaks with
  | nil =>
      rfl
  | cons tweak later inductionHypothesis =>
      rw [scriptToSecretMap,
        getSpksFromSharedSecret_spec spread (known tweak List.mem_cons_self)]
      dsimp only [bind, Except.bind]
      rw [inductionHypothesis
        (fun other member => known other (List.mem_cons_of_mem _ member))]
      rfl

end Candidates

section Block

variable {receiver} {scanKey}

def blockSecrets
    (receiver : Receiver curve)
    (scanKey : S)
    (txs : List (BlockTx G X)) : List (X × G) :=
  txs.flatMap (fun tx =>
    (row receiver scanKey tx.tweak).map (fun key => (key, tx.secret scanKey)))

variable {key : X} {utxos : List (UtxoData X)} {txs : List (BlockTx G X)}

theorem mem_blockSecrets
    {secret : G} :
    (key, secret) ∈ blockSecrets receiver scanKey txs ↔
      ∃ tx ∈ txs, secret = tx.secret scanKey ∧
        receiver.Candidate secret key := by
  unfold blockSecrets row Candidate
  simp only [List.mem_flatMap, List.mem_map, Prod.mk.injEq]
  constructor
  · rintro ⟨tx, listed, _, ⟨label, ours, rfl⟩, rfl, rfl⟩
    exact ⟨tx, listed, rfl, label, ours, rfl⟩
  · rintro ⟨tx, listed, rfl, label, ours, rfl⟩
    exact ⟨tx, listed, _, ⟨label, ours, rfl⟩, rfl, rfl⟩

theorem storedSecret_some
    {secret : G}
    (stored :
      storedSecret (blockSecrets receiver scanKey txs) key = some secret) :
    ∃ tx ∈ txs, secret = tx.secret scanKey ∧
      receiver.Candidate secret key := by
  obtain ⟨entry, found, rfl⟩ := Option.map_eq_some_iff.mp stored
  have member := List.mem_reverse.mp (List.mem_of_find?_eq_some found)
  have same := List.find?_some found
  rw [decide_eq_true_eq] at same
  rw [← same]
  exact mem_blockSecrets.mp member

theorem storedSecret_none
    {txs : List (BlockTx G X)} :
    storedSecret (blockSecrets receiver scanKey txs) key = none ↔
      ∀ tx ∈ txs, ¬ receiver.Candidate (tx.secret scanKey) key := by
  rw [storedSecret, Option.map_eq_none_iff, List.find?_eq_none]
  constructor
  · intro nothing tx listed candidate
    refine nothing (key, tx.secret scanKey) ?_ (by simp)
    rw [List.mem_reverse, mem_blockSecrets]
    exact ⟨tx, listed, rfl, candidate⟩
  · rintro nothing ⟨other, secret⟩ member
    rw [List.mem_reverse, mem_blockSecrets] at member
    obtain ⟨tx, listed, rfl, candidate⟩ := member
    rw [decide_eq_true_eq]
    rintro rfl
    exact nothing tx listed candidate

theorem firstSecret_none
    {txs : List (BlockTx G X)} :
    firstSecret (blockSecrets receiver scanKey txs) utxos = none ↔
      ∀ utxo ∈ utxos, ¬ receiver.Hit scanKey txs utxo := by
  rw [firstSecret, List.findSome?_eq_none_iff]
  refine forall₂_congr (fun utxo _ => ?_)
  rw [Option.bind_eq_none_iff]
  unfold Hit
  constructor
  · rintro nothing ⟨tx, listed, key, here, candidate⟩
    exact storedSecret_none.mp (nothing key here) tx listed candidate
  · intro nothing key here
    rw [storedSecret_none]
    exact fun tx listed candidate => nothing ⟨tx, listed, key, here, candidate⟩

/-- The secret of some outputs is that of a transaction of the block, and gives
one of their keys. -/
theorem firstSecret_some
    {secret : G}
    (first :
      firstSecret (blockSecrets receiver scanKey txs) utxos = some secret) :
    ∃ utxo ∈ utxos, ∃ key, utxo.scriptpubkey.key? = some key ∧
      ∃ tx ∈ txs, secret = tx.secret scanKey ∧
        receiver.Candidate secret key := by
  obtain ⟨utxo, listed, found⟩ := List.exists_of_findSome?_eq_some first
  obtain ⟨key, here, stored⟩ := Option.bind_eq_some_iff.mp found
  exact ⟨utxo, listed, key, here, storedSecret_some stored⟩

theorem firstSecret_filter
    (secrets : List (X × G))
    (utxos : List (UtxoData X)) :
    firstSecret secrets
        (utxos.filter (fun utxo => utxo.scriptpubkey.isP2tr)) =
      firstSecret secrets utxos := by
  unfold firstSecret
  rw [← List.head?_filterMap, ← List.head?_filterMap,
    UtxoData.filterMap_isP2tr]
  intro utxo other
  rw [OutputScript.key?_eq_none other]
  rfl

end Block

section Transaction

variable {receiver} {scanKey}
variable {txs : List (BlockTx G X)} {bound : Nat}
variable
    (spread :
      receiver.Spread (txs.map (fun tx => tx.secret scanKey)) bound)
variable {tx : BlockTx G X} (few : tx.keys.length ≤ bound)

include spread few

variable {utxo : UtxoData X} {label : Option S} {tweak : S}

theorem finds_iff
    {secret : G}
    (known : secret ∈ txs.map (fun tx => tx.secret scanKey)) :
    receiver.Finds secret tx utxo label tweak ↔
      ∃ n, receiver.Reaches secret tx.keys n ∧
        receiver.Pays secret tx.keys n label ∧
        utxo.scriptpubkey =
          .taproot (receiver.outputKey secret n label) ∧
        tweak = keyTweak curve secret n label := by
  obtain ⟨found, ends, entries⟩ := scanTransaction_get spread known few
  constructor
  · rintro ⟨key, found', script, ends', got⟩
    rw [ends] at ends'
    cases ends'
    obtain ⟨n, reaches, pays, own⟩ := (entries key label tweak).mp got
    cases own
    exact ⟨n, reaches, pays, script, rfl⟩
  · rintro ⟨n, reaches, pays, script, rfl⟩
    exact ⟨_, found, script, ends,
      (entries _ _ _).mpr ⟨n, reaches, pays, rfl⟩⟩

theorem Finds.outputKey
    {secret : G}
    (known : secret ∈ txs.map (fun tx => tx.secret scanKey))
    (finds : receiver.Finds secret tx utxo label tweak) :
    ∃ key n, utxo.scriptpubkey = .taproot key ∧ n ≤ bound ∧
      ∃ label ∈ receiver.paidLabels,
        key = receiver.outputKey secret n label := by
  obtain ⟨key, found, script, returned, got⟩ := finds
  obtain ⟨all, ends, indexed, short, _⟩ :=
    scanTransaction_spec spread known few
  rw [ends] at returned
  cases returned
  obtain ⟨entry, at_, _⟩ := Option.map_eq_some_iff.mp got
  have same := List.find?_some at_
  rw [decide_eq_true_eq] at same
  obtain ⟨n, within, rfl⟩ :=
    List.mem_iff_getElem.mp (List.mem_of_find?_eq_some at_)
  obtain ⟨label, pays, own⟩ :=
    indexed n _ (List.getElem?_eq_getElem within)
  refine ⟨key, n, script, by omega, label, pays.mem.1, ?_⟩
  rw [← same, own]
  rfl

theorem Finds.candidate
    {secret : G}
    (known : secret ∈ txs.map (fun tx => tx.secret scanKey))
    (finds : receiver.Finds secret tx utxo label tweak) :
    ∃ key ∈ tx.keys, receiver.Candidate secret key := by
  obtain ⟨n, reaches, pays, _, _⟩ := (finds_iff spread few known).mp finds
  cases n with
  | zero =>
      exact ⟨_, pays.mem.2, label, pays.mem.1, rfl⟩
  | succ n =>
      obtain ⟨first, ours, listed⟩ := reaches 0 (Nat.succ_pos n)
      exact ⟨_, listed, first, ours, rfl⟩

theorem Finds.unique
    {first second : G}
    (known : first ∈ txs.map (fun tx => tx.secret scanKey))
    (other : second ∈ txs.map (fun tx => tx.secret scanKey))
    {label label' : Option S}
    {tweak tweak' : S}
    (finds : receiver.Finds first tx utxo label tweak)
    (finds' : receiver.Finds second tx utxo label' tweak') :
    first = second := by
  obtain ⟨key, n, script, low, label, ours, own⟩ :=
    finds.outputKey spread few known
  obtain ⟨key', n', script', low', label', ours', own'⟩ :=
    finds'.outputKey spread few other
  rw [script] at script'
  cases script'
  exact (spread.apart first known n low label ours second other n' low' label'
    ours' (own.symm.trans own')).1

end Transaction

theorem report_eq_some
    {found : Found S X}
    {utxo reported : UtxoData X}
    {label : Option S}
    {tweak : S} :
    report found utxo = some (label, reported, tweak) ↔
      reported = utxo ∧ utxo.spent = false ∧
        ∃ key, utxo.scriptpubkey = .taproot key ∧
          found.get key = some (label, tweak) := by
  unfold report
  cases spent : utxo.spent with
  | true =>
      simp
  | false =>
      cases script : utxo.scriptpubkey with
      | taproot key =>
          cases got : found.get key with
          | none =>
              simp [OutputScript.key?, got]
          | some entry =>
              obtain ⟨label', tweak'⟩ := entry
              simp only [OutputScript.key?, Option.bind_some, got,
                Option.map_some, Option.some.injEq, Prod.mk.injEq,
                OutputScript.taproot.injEq, true_and, Bool.false_eq_true,
                if_false]
              constructor
              · rintro ⟨rfl, rfl, rfl⟩
                exact ⟨rfl, key, rfl, got⟩
              · rintro ⟨rfl, _, rfl, same⟩
                rw [got] at same
                cases same
                exact ⟨rfl, rfl, rfl⟩
      | invalidTaproot bytes | other bytes =>
          simp [OutputScript.key?]

/-- Some taproot output has no valid key. -/
def Invalid (utxos : List (UtxoData X)) : Prop :=
  ∃ utxo ∈ utxos, ∃ bytes, utxo.scriptpubkey = .invalidTaproot bytes

theorem outputKeys_cases (utxos : List (UtxoData X)) :
    (Invalid utxos ∧ outputKeys utxos = .error .invalidXOnlyKey) ∨
      ¬ Invalid utxos ∧
        outputKeys utxos =
          .ok (utxos.filterMap (fun utxo => utxo.scriptpubkey.key?)) := by
  induction utxos with
  | nil =>
      exact Or.inr ⟨by simp [Invalid], rfl⟩
  | cons utxo later inductionHypothesis =>
      have split_ :
          Invalid (utxo :: later) ↔
            (∃ bytes, utxo.scriptpubkey = .invalidTaproot bytes) ∨
              Invalid later := by
        simp [Invalid]
      rw [split_, outputKeys]
      cases script : utxo.scriptpubkey with
      | taproot key =>
          rcases inductionHypothesis with
            ⟨invalid, failed⟩ | ⟨valid, returned⟩
          · refine Or.inl ⟨Or.inr invalid, ?_⟩
            dsimp only [bind, Except.bind]
            rw [failed]
          · refine Or.inr ⟨by simp [valid], ?_⟩
            dsimp only [bind, Except.bind]
            rw [returned, List.filterMap_cons, script]
            rfl
      | invalidTaproot bytes =>
          exact Or.inl ⟨Or.inl ⟨bytes, rfl⟩, rfl⟩
      | other bytes =>
          rcases inductionHypothesis with
            ⟨invalid, failed⟩ | ⟨valid, returned⟩
          · exact Or.inl ⟨Or.inr invalid, failed⟩
          · refine Or.inr ⟨by simp [valid], ?_⟩
            dsimp only
            rw [returned, List.filterMap_cons, script]
            rfl

theorem outputKeys_filter (utxos : List (UtxoData X)) :
    outputKeys (utxos.filter (fun utxo => utxo.scriptpubkey.isP2tr)) =
      outputKeys utxos := by
  have same :
      Invalid (utxos.filter (fun utxo => utxo.scriptpubkey.isP2tr)) ↔
        Invalid utxos := by
    unfold Invalid
    constructor
    · rintro ⟨utxo, member, bytes, script⟩
      exact ⟨utxo, List.mem_of_mem_filter member, bytes, script⟩
    · rintro ⟨utxo, member, bytes, script⟩
      refine ⟨utxo, List.mem_filter.mpr ⟨member, ?_⟩, bytes, script⟩
      rw [script]
      rfl
  have keys :
      (utxos.filter (fun utxo => utxo.scriptpubkey.isP2tr)).filterMap
          (fun utxo => utxo.scriptpubkey.key?) =
        utxos.filterMap (fun utxo => utxo.scriptpubkey.key?) :=
    UtxoData.filterMap_isP2tr
      (fun _ other => OutputScript.key?_eq_none other) utxos
  rcases outputKeys_cases utxos with
      ⟨invalid, failed⟩ | ⟨valid, returned⟩ <;>
    rcases outputKeys_cases
      (utxos.filter (fun utxo => utxo.scriptpubkey.isP2tr)) with
      ⟨invalid', failed'⟩ | ⟨valid', returned'⟩
  · rw [failed, failed']
  · exact absurd (same.mpr invalid) valid'
  · exact absurd (same.mp invalid') valid
  · rw [returned, returned', keys]

theorem scanGroup_filter
    (secrets : List (X × G))
    (utxos : List (UtxoData X)) :
    receiver.scanGroup secrets
        (utxos.filter (fun utxo => utxo.scriptpubkey.isP2tr)) =
      receiver.scanGroup secrets utxos := by
  have reports :
      ∀ found : Found S X,
        (utxos.filter (fun utxo => utxo.scriptpubkey.isP2tr)).filterMap
            (report found) =
          utxos.filterMap (report found) := by
    intro found
    refine UtxoData.filterMap_isP2tr (fun utxo other => ?_) utxos
    rw [report, OutputScript.key?_eq_none other]
    split <;> rfl
  unfold scanGroup
  rw [firstSecret_filter, outputKeys_filter]
  simp only [reports]

/-- A transaction scanned with a secret of the block reports the unspent outputs
found under it; one without a secret reports nothing. -/
theorem scanGroup_spec
    {scanKey : S}
    {txs : List (BlockTx G X)}
    {bound : Nat}
    (spread :
      receiver.Spread (txs.map (fun tx => tx.secret scanKey)) bound)
    {tx : BlockTx G X}
    (few : tx.keys.length ≤ bound) :
    (∃ secret,
        firstSecret (blockSecrets receiver scanKey txs) tx.outputs =
            some secret ∧
          Invalid tx.outputs ∧
          receiver.scanGroup (blockSecrets receiver scanKey txs) tx.outputs =
            some (.error .invalidXOnlyKey)) ∨
      ∃ here,
        receiver.scanGroup (blockSecrets receiver scanKey txs) tx.outputs =
            some (.ok here) ∧
          (∀ label utxo tweak,
            (label, utxo, tweak) ∈ here ↔
              ∃ secret,
                firstSecret (blockSecrets receiver scanKey txs) tx.outputs =
                    some secret ∧
                  utxo ∈ tx.outputs ∧ utxo.spent = false ∧
                  receiver.Finds secret tx utxo label tweak) ∧
          ∀ secret,
            firstSecret (blockSecrets receiver scanKey txs) tx.outputs =
                some secret →
              ¬ Invalid tx.outputs := by
  unfold scanGroup
  cases first :
      firstSecret (blockSecrets receiver scanKey txs) tx.outputs with
  | none =>
      refine Or.inr ⟨[], rfl, ?_, ?_⟩
      · intro label utxo tweak
        simp
      · intro secret impossible
        cases impossible
  | some secret =>
      obtain ⟨_, _, _, _, other, listed, own, _⟩ := firstSecret_some first
      have known : secret ∈ txs.map (fun tx => tx.secret scanKey) :=
        List.mem_map.mpr ⟨other, listed, own.symm⟩
      rcases outputKeys_cases tx.outputs with
        ⟨invalid, failed⟩ | ⟨valid, returned⟩
      · refine Or.inl ⟨secret, rfl, invalid, ?_⟩
        dsimp only
        rw [failed]
      · obtain ⟨found, ends, _⟩ := scanTransaction_get spread known few
        refine Or.inr ⟨tx.outputs.filterMap (report found), ?_, ?_,
          fun _ _ => valid⟩
        · dsimp only
          rw [returned]
          dsimp only
          rw [show
            tx.outputs.filterMap (fun utxo => utxo.scriptpubkey.key?) =
              tx.keys from rfl, ends]
          rfl
        · intro label utxo tweak
          simp only [List.mem_filterMap, report_eq_some]
          constructor
          · rintro ⟨source, member, rfl, unspent, key, script, got⟩
            exact ⟨secret, rfl, member, unspent, key, found, script, ends, got⟩
          · rintro ⟨other, same, member, unspent, key, found', script, ends',
              got⟩
            cases same
            rw [ends] at ends'
            cases ends'
            exact ⟨utxo, member, rfl, unspent, key, script, got⟩

end Receiver

end Bwk
