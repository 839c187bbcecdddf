import Bwk.SpMatch

set_option linter.unusedSectionVars false

namespace Bwk

/-!
# What the pipeline reports of a block

The transactions of a block, scanned with the secrets that the block's stored
candidates pick, against a full scan of each with its own secret.
-/

namespace Receiver

variable
    {S G X : Type}
    [CommRing S] [AddCommGroup G] [Module S G]
    [DecidableEq S] [DecidableEq G] [DecidableEq X]
    {curve : SpCurve S G X}
    (receiver : Receiver curve)
    (scanKey : S)

section Whole

variable {receiver} {scanKey}
variable {txs : List (BlockTx G X)} {block : BlockData G X}
variable (describes : receiver.Describes scanKey txs block)

theorem Describes.tx_unique
    (describes : receiver.Describes scanKey txs block)
    {tx other : BlockTx G X}
    (listed : tx ∈ txs)
    (listed' : other ∈ txs)
    (same : tx.txid = other.txid) :
    tx = other :=
  List.inj_on_of_nodup_map describes.txids listed listed' same

theorem Describes.utxo_unique
    (describes : receiver.Describes scanKey txs block)
    {tx other : BlockTx G X}
    (listed : tx ∈ txs)
    (listed' : other ∈ txs)
    {utxo utxo' : UtxoData X}
    (member : utxo ∈ tx.outputs)
    (member' : utxo' ∈ other.outputs)
    (same : utxo.outpoint = utxo'.outpoint) :
    tx = other ∧ utxo = utxo' := by
  have txid : utxo.txid = utxo'.txid := congrArg OutPoint.txid same
  have vout : utxo.vout = utxo'.vout := congrArg OutPoint.vout same
  have one : tx = other := by
    refine describes.tx_unique listed listed' ?_
    rw [← describes.named tx listed utxo member,
      ← describes.named other listed' utxo' member', txid]
  subst one
  exact ⟨rfl,
    List.inj_on_of_nodup_map (describes.vouts tx listed) member member' vout⟩

theorem Describes.mem_listedFor
    (describes : receiver.Describes scanKey txs block)
    {tx : BlockTx G X}
    (listed : tx ∈ txs)
    {utxo : UtxoData X}
    (member : utxo ∈ listedFor block.utxos tx.txid) :
    utxo ∈ tx.outputs := by
  obtain ⟨inside, named⟩ := List.mem_filter.mp member
  rw [decide_eq_true_eq] at named
  obtain ⟨other, listed', member'⟩ := describes.listed utxo inside
  have same :=
    describes.tx_unique listed listed'
      (named.symm.trans (describes.named other listed' utxo member'))
  rwa [same]

theorem Describes.scanGroup_listed
    (describes : receiver.Describes scanKey txs block)
    {tx : BlockTx G X}
    (listed : tx ∈ txs) :
    receiver.scanGroup (blockSecrets receiver scanKey txs)
        (listedFor block.utxos tx.txid) =
      receiver.scanGroup (blockSecrets receiver scanKey txs) tx.outputs := by
  by_cases hit : ∃ utxo ∈ tx.outputs, receiver.Hit scanKey txs utxo
  · rw [← receiver.scanGroup_filter _ (listedFor block.utxos tx.txid),
      ← receiver.scanGroup_filter _ tx.outputs,
      describes.complete tx listed hit]
  · have own :
        firstSecret (blockSecrets receiver scanKey txs) tx.outputs = none :=
      firstSecret_none.mpr
        (fun utxo member found => hit ⟨utxo, member, found⟩)
    have shown :
        firstSecret (blockSecrets receiver scanKey txs)
            (listedFor block.utxos tx.txid) = none :=
      firstSecret_none.mpr
        (fun utxo member found =>
          hit ⟨utxo, describes.mem_listedFor listed member, found⟩)
    rw [scanGroup, scanGroup, own, shown]

theorem scanGroups_cases
    (secrets : List (X × G))
    (utxos : List (UtxoData X))
    (txids : List Txid) :
    ((∃ txid ∈ txids, ∀ here,
          receiver.scanGroup secrets (listedFor utxos txid) ≠
            some (.ok here)) ∧
        ∀ all, receiver.scanGroups secrets utxos txids ≠ some (.ok all)) ∨
      ∃ all,
        receiver.scanGroups secrets utxos txids = some (.ok all) ∧
          (∀ txid ∈ txids, ∃ here,
            receiver.scanGroup secrets (listedFor utxos txid) =
              some (.ok here)) ∧
          ∀ found,
            found ∈ all ↔
              ∃ txid ∈ txids, ∃ here,
                receiver.scanGroup secrets (listedFor utxos txid) =
                    some (.ok here) ∧
                  found ∈ here := by
  induction txids with
  | nil =>
      exact Or.inr ⟨[], rfl, by simp, by simp⟩
  | cons txid later inductionHypothesis =>
      rw [scanGroups]
      cases group : receiver.scanGroup secrets (listedFor utxos txid) with
      | none =>
          refine Or.inl ⟨⟨txid, List.mem_cons_self, fun here => ?_⟩, by simp⟩
          rw [group]
          simp
      | some result =>
          cases result with
          | error reason =>
              refine Or.inl
                ⟨⟨txid, List.mem_cons_self, fun here => ?_⟩, by simp⟩
              rw [group]
              simp
          | ok here =>
              dsimp only
              rcases inductionHypothesis with
                ⟨⟨other, member, fails⟩, never⟩ | ⟨all, returned, each, members⟩
              · refine Or.inl ⟨⟨other, List.mem_cons_of_mem _ member, fails⟩,
                  fun all returned => ?_⟩
                cases rest : receiver.scanGroups secrets utxos later with
                | none =>
                    rw [rest] at returned
                    cases returned
                | some result =>
                    cases result with
                    | error reason =>
                        rw [rest] at returned
                        cases returned
                    | ok rest' =>
                        exact never rest' rest
              · refine Or.inr ⟨here ++ all, by rw [returned]; rfl, ?_, ?_⟩
                · intro other member
                  rcases List.mem_cons.mp member with rfl | further
                  · exact ⟨here, group⟩
                  · exact each other further
                · intro found
                  rw [List.mem_append, members]
                  constructor
                  · rintro (first | ⟨other, member, rest, ends, inside⟩)
                    · exact ⟨txid, List.mem_cons_self, here, group, first⟩
                    · exact ⟨other, List.mem_cons_of_mem _ member, rest, ends,
                        inside⟩
                  · rintro ⟨other, member, rest, ends, inside⟩
                    rcases List.mem_cons.mp member with rfl | further
                    · rw [group] at ends
                      cases ends
                      exact Or.inl inside
                    · exact Or.inr ⟨other, further, rest, ends, inside⟩

end Whole

theorem scanGroup_unlisted
    (secrets : List (X × G))
    {utxos : List (UtxoData X)}
    {txid : Txid}
    (unlisted : txid ∉ (utxos.map (fun utxo => utxo.txid)).dedup) :
    receiver.scanGroup secrets (listedFor utxos txid) = some (.ok []) := by
  have nothing : listedFor utxos txid = [] := by
    rw [listedFor, List.filter_eq_nil_iff]
    intro utxo member
    rw [decide_eq_true_eq]
    rintro rfl
    exact unlisted (List.mem_dedup.mpr (List.mem_map_of_mem member))
  rw [nothing]
  rfl

theorem Finds.functional
    {receiver : Receiver curve}
    {secret : G}
    {tx : BlockTx G X}
    {utxo : UtxoData X}
    {label label' : Option S}
    {tweak tweak' : S}
    (finds : receiver.Finds secret tx utxo label tweak)
    (finds' : receiver.Finds secret tx utxo label' tweak') :
    label = label' ∧ tweak = tweak' := by
  obtain ⟨key, found, script, returned, got⟩ := finds
  obtain ⟨key', found', script', returned', got'⟩ := finds'
  rw [script] at script'
  cases script'
  rw [returned] at returned'
  cases returned'
  rw [got] at got'
  cases got'
  exact ⟨rfl, rfl⟩

section Whole

variable {receiver} {scanKey}
variable {txs : List (BlockTx G X)} {block : BlockData G X} {bound : Nat}

def PickedFinds
    (receiver : Receiver curve)
    (scanKey : S)
    (txs : List (BlockTx G X))
    (height : Nat)
    (outpoint : OutPoint)
    (output : OwnedUtxo S X) : Prop :=
  ∃ tx ∈ txs, ∃ secret,
    firstSecret (blockSecrets receiver scanKey txs) tx.outputs =
        some secret ∧
      ∃ utxo ∈ tx.outputs, ∃ label tweak,
        utxo.spent = false ∧ receiver.Finds secret tx utxo label tweak ∧
          (outpoint, output) = owned height (label, utxo, tweak)

theorem Describes.picked_unique
    (describes : receiver.Describes scanKey txs block)
    {height : Nat}
    {outpoint : OutPoint}
    {output output' : OwnedUtxo S X}
    (picked : PickedFinds receiver scanKey txs height outpoint output)
    (picked' : PickedFinds receiver scanKey txs height outpoint output') :
    output = output' := by
  obtain ⟨tx, listed, secret, first, utxo, member, label, tweak, _, finds,
    same⟩ := picked
  obtain ⟨tx', listed', secret', first', utxo', member', label', tweak', _,
    finds', same'⟩ := picked'
  have outpoints : utxo.outpoint = utxo'.outpoint :=
    (congrArg Prod.fst same).symm.trans (congrArg Prod.fst same')
  obtain ⟨rfl, rfl⟩ :=
    describes.utxo_unique listed listed' member member' outpoints
  rw [first] at first'
  cases first'
  obtain ⟨rfl, rfl⟩ := finds.functional finds'
  exact (congrArg Prod.snd same).trans (congrArg Prod.snd same').symm

variable
    (describes : receiver.Describes scanKey txs block)
    (spread :
      receiver.Spread (txs.map (fun tx => tx.secret scanKey)) bound)
    (few : ∀ tx ∈ txs, tx.keys.length ≤ bound)

include describes spread few

theorem deriveOwned_cases :
    ((∃ tx ∈ txs, ∃ secret,
          firstSecret (blockSecrets receiver scanKey txs) tx.outputs =
              some secret ∧
            Invalid tx.outputs) ∧
        ∀ map, receiver.deriveOwned scanKey block ≠ some (.ok map)) ∨
      (∀ tx ∈ txs, ∀ secret,
          firstSecret (blockSecrets receiver scanKey txs) tx.outputs =
              some secret →
            ¬ Invalid tx.outputs) ∧
        ∃ map,
          receiver.deriveOwned scanKey block = some (.ok map) ∧
            ∀ outpoint output,
              map[outpoint]? = some output ↔
                PickedFinds receiver scanKey txs block.height outpoint
                  output := by
  have known :
      ∀ tweak ∈ block.tweaks,
        SpCurve.calculateEcdhSharedSecret tweak scanKey ∈
          txs.map (fun tx => tx.secret scanKey) := by
    intro tweak member
    rw [describes.tweaks] at member
    obtain ⟨tx, listed, rfl⟩ := List.mem_map.mp member
    exact List.mem_map.mpr ⟨tx, listed, rfl⟩
  have secrets :
      receiver.scriptToSecretMap scanKey block.tweaks =
        .ok (blockSecrets receiver scanKey txs) := by
    rw [scriptToSecretMap_eq spread known, describes.tweaks, List.flatMap_map]
    rfl
  rw [deriveOwned, secrets]
  dsimp only
  -- Every listed name is that of a transaction.
  have named :
      ∀ txid ∈ (block.utxos.map (fun utxo => utxo.txid)).dedup,
        ∃ tx ∈ txs, tx.txid = txid := by
    intro txid member
    obtain ⟨utxo, inside, rfl⟩ := List.mem_map.mp (List.mem_dedup.mp member)
    obtain ⟨tx, listed, own⟩ := describes.listed utxo inside
    exact ⟨tx, listed, (describes.named tx listed utxo own).symm⟩
  rcases receiver.scanGroups_cases (blockSecrets receiver scanKey txs)
      block.utxos (block.utxos.map (fun utxo => utxo.txid)).dedup with
    ⟨⟨txid, member, fails⟩, never⟩ | ⟨all, returned, each, members⟩
  · left
    obtain ⟨tx, listed, rfl⟩ := named txid member
    rw [describes.scanGroup_listed listed] at fails
    constructor
    · rcases receiver.scanGroup_spec spread (few tx listed) with
        ⟨secret, first, invalid, _⟩ | ⟨here, ends, _⟩
      · exact ⟨tx, listed, secret, first, invalid⟩
      · exact absurd ends (fails here)
    · intro map
      rw [scanUtxos]
      cases groups :
          receiver.scanGroups (blockSecrets receiver scanKey txs) block.utxos
            (block.utxos.map (fun utxo => utxo.txid)).dedup with
      | none =>
          simp
      | some result =>
          cases result with
          | error reason =>
              simp [Except.map]
          | ok all =>
              exact absurd groups (never all)
  · right
    have ok :
        ∀ tx ∈ txs, ∃ here,
          receiver.scanGroup (blockSecrets receiver scanKey txs) tx.outputs =
            some (.ok here) := by
      intro tx listed
      rw [← describes.scanGroup_listed listed]
      by_cases shown :
          tx.txid ∈ (block.utxos.map (fun utxo => utxo.txid)).dedup
      · exact each tx.txid shown
      · exact ⟨[], receiver.scanGroup_unlisted _ shown⟩
    have reported :
        ∀ label utxo tweak,
          (label, utxo, tweak) ∈ all ↔
            ∃ tx ∈ txs, ∃ secret,
              firstSecret (blockSecrets receiver scanKey txs) tx.outputs =
                  some secret ∧
                utxo ∈ tx.outputs ∧ utxo.spent = false ∧
                receiver.Finds secret tx utxo label tweak := by
      intro label utxo tweak
      rw [members]
      constructor
      · rintro ⟨txid, member, here, ends, inside⟩
        obtain ⟨tx, listed, rfl⟩ := named txid member
        rw [describes.scanGroup_listed listed] at ends
        rcases receiver.scanGroup_spec spread (few tx listed) with
          ⟨_, _, _, failed⟩ | ⟨here', ends', spec, _⟩
        · rw [failed] at ends
          cases ends
        · rw [ends'] at ends
          cases ends
          exact ⟨tx, listed, (spec label utxo tweak).mp inside⟩
      · rintro ⟨tx, listed, found⟩
        obtain ⟨here, ends⟩ := ok tx listed
        rcases receiver.scanGroup_spec spread (few tx listed) with
          ⟨_, _, _, failed⟩ | ⟨here', ends', spec, _⟩
        · rw [failed] at ends
          cases ends
        · have inside := (spec label utxo tweak).mpr found
          by_cases shown :
              tx.txid ∈ (block.utxos.map (fun utxo => utxo.txid)).dedup
          · exact ⟨tx.txid, shown, here',
              (describes.scanGroup_listed listed).trans ends', inside⟩
          · have empty :=
              receiver.scanGroup_unlisted
                (blockSecrets receiver scanKey txs) shown
            rw [describes.scanGroup_listed listed, ends'] at empty
            cases empty
            cases inside
    constructor
    · intro tx listed secret first
      obtain ⟨here, ends⟩ := ok tx listed
      rcases receiver.scanGroup_spec spread (few tx listed) with
        ⟨_, _, _, failed⟩ | ⟨_, _, _, valid⟩
      · rw [failed] at ends
        cases ends
      · exact valid secret first
    · refine ⟨_, by rw [scanUtxos, returned]; rfl, ?_⟩
      have picked :
          ∀ outpoint output,
            (outpoint, output) ∈ all.map (owned block.height) ↔
              PickedFinds receiver scanKey txs block.height outpoint
                output := by
        intro outpoint output
        rw [List.mem_map]
        constructor
        · rintro ⟨⟨label, utxo, tweak⟩, inside, same⟩
          obtain ⟨tx, listed, secret, first, member, unspent, finds⟩ :=
            (reported label utxo tweak).mp inside
          exact ⟨tx, listed, secret, first, utxo, member, label, tweak,
            unspent, finds, same.symm⟩
        · rintro ⟨tx, listed, secret, first, utxo, member, label, tweak,
            unspent, finds, same⟩
          exact ⟨(label, utxo, tweak), (reported label utxo tweak).mpr
            ⟨tx, listed, secret, first, member, unspent, finds⟩, same.symm⟩
      intro outpoint output
      rw [BTreeMap.getElem?_insertAll_of_agree, picked]
      intro key value other here there
      exact describes.picked_unique ((picked key value).mp here)
        ((picked key other).mp there)

end Whole

section Reported

variable {receiver} {scanKey}
variable {txs : List (BlockTx G X)} {block : BlockData G X} {bound : Nat}
variable
    (spread :
      receiver.Spread (txs.map (fun tx => tx.secret scanKey)) bound)

include spread

variable {tx : BlockTx G X} {secret : G} {key : X}

theorem Candidate.unique
    {tx other : BlockTx G X}
    (listed : tx ∈ txs)
    (listed' : other ∈ txs)
    (candidate : receiver.Candidate (tx.secret scanKey) key)
    (candidate' : receiver.Candidate (other.secret scanKey) key) :
    tx.secret scanKey = other.secret scanKey := by
  obtain ⟨label, ours, own⟩ := candidate
  obtain ⟨label', ours', own'⟩ := candidate'
  exact (spread.apart _ (List.mem_map_of_mem listed) 0 (Nat.zero_le _) label
    ours _ (List.mem_map_of_mem listed') 0 (Nat.zero_le _) label' ours'
    (own.symm.trans own')).1

theorem storedSecret_eq
    (listed : tx ∈ txs)
    (candidate : receiver.Candidate (tx.secret scanKey) key) :
    storedSecret (blockSecrets receiver scanKey txs) key =
      some (tx.secret scanKey) := by
  cases stored : storedSecret (blockSecrets receiver scanKey txs) key with
  | none =>
      exact absurd candidate (storedSecret_none.mp stored tx listed)
  | some secret =>
      obtain ⟨other, listed', rfl, candidate'⟩ := storedSecret_some stored
      rw [candidate'.unique spread listed' listed candidate]

theorem firstSecret_eq_some
    {utxos : List (UtxoData X)} :
    firstSecret (blockSecrets receiver scanKey txs) utxos = some secret ↔
      ∃ before utxo after key,
        utxos = before ++ utxo :: after ∧
          (∀ earlier ∈ before, ¬ receiver.Hit scanKey txs earlier) ∧
          utxo.scriptpubkey = .taproot key ∧
          ∃ other ∈ txs, secret = other.secret scanKey ∧
            receiver.Candidate (other.secret scanKey) key := by
  have none_iff (earlier : List (UtxoData X)) :
      (∀ utxo ∈ earlier,
          utxo.scriptpubkey.key?.bind
              (storedSecret (blockSecrets receiver scanKey txs)) = none) ↔
        ∀ utxo ∈ earlier, ¬ receiver.Hit scanKey txs utxo := by
    rw [← firstSecret_none, firstSecret, List.findSome?_eq_none_iff]
  rw [firstSecret, List.findSome?_eq_some_iff]
  constructor
  · rintro ⟨before, utxo, after, split, found, nothing⟩
    obtain ⟨key, script, stored⟩ := Option.bind_eq_some_iff.mp found
    obtain ⟨other, listed, rfl, candidate⟩ := storedSecret_some stored
    exact ⟨before, utxo, after, key, split, (none_iff before).mp nothing,
      OutputScript.key?_eq_some.mp script, other, listed, rfl, candidate⟩
  · rintro ⟨before, utxo, after, key, split, nothing, script, other, listed,
      rfl, candidate⟩
    refine ⟨before, utxo, after, split, ?_, (none_iff before).mpr nothing⟩
    rw [OutputScript.key?_eq_some.mpr script, Option.bind_some,
      storedSecret_eq spread listed candidate]

theorem paysUnspent_iff
    (few : tx.keys.length ≤ bound)
    (known : secret ∈ txs.map (fun tx => tx.secret scanKey)) :
    receiver.PaysUnspent secret tx ↔
      ∃ utxo ∈ tx.outputs, utxo.spent = false ∧
        ∃ label tweak, receiver.Finds secret tx utxo label tweak := by
  constructor
  · rintro ⟨utxo, member, unspent, n, label, reaches, pays, script⟩
    exact ⟨utxo, member, unspent, label, _,
      (finds_iff spread few known).mpr ⟨n, reaches, pays, script, rfl⟩⟩
  · rintro ⟨utxo, member, unspent, label, tweak, finds⟩
    obtain ⟨n, reaches, pays, script, _⟩ :=
      (finds_iff spread few known).mp finds
    exact ⟨utxo, member, unspent, n, label, reaches, pays, script⟩

/-- The condition on the candidates, of the secret a transaction is scanned
with. -/
theorem ownCandidates_iff :
    receiver.OwnCandidates scanKey txs ↔
      ∀ tx ∈ txs, ∀ secret,
        firstSecret (blockSecrets receiver scanKey txs) tx.outputs =
            some secret →
          ¬ Invalid tx.outputs ∧
            (secret = tx.secret scanKey ∨
              ¬ receiver.PaysUnspent secret tx ∧
                ¬ receiver.PaysUnspent (tx.secret scanKey) tx) := by
  have invalid_iff (tx : BlockTx G X) :
      ¬ Invalid tx.outputs ↔
        ∀ output ∈ tx.outputs, ∀ bytes,
          output.scriptpubkey ≠ .invalidTaproot bytes := by
    simp [Invalid]
  constructor
  · intro own tx listed secret first
    obtain ⟨before, utxo, after, key, split, nothing, script, other, listed',
      rfl, candidate⟩ := (firstSecret_eq_some spread).mp first
    obtain ⟨valid, secrets⟩ :=
      own tx listed before utxo after key split nothing script other listed'
        candidate
    refine ⟨(invalid_iff tx).mpr valid, secrets.imp_left ?_⟩
    exact fun its => candidate.unique spread listed' listed its
  · intro own tx listed before utxo after key split nothing script other
      listed' candidate
    obtain ⟨valid, secrets⟩ :=
      own tx listed _ ((firstSecret_eq_some spread).mpr
        ⟨before, utxo, after, key, split, nothing, script, other, listed',
          rfl, candidate⟩)
    refine ⟨(invalid_iff tx).mp valid, secrets.imp_left ?_⟩
    intro same
    rw [← same]
    exact candidate

theorem FullFinds.hit
    (few : ∀ tx ∈ txs, tx.keys.length ≤ bound)
    (listed : tx ∈ txs)
    {utxo : UtxoData X}
    {label : Option S}
    {tweak : S}
    (finds : receiver.Finds (tx.secret scanKey) tx utxo label tweak) :
    ∃ hit ∈ tx.outputs, receiver.Hit scanKey txs hit := by
  obtain ⟨key, inside, candidate⟩ :=
    finds.candidate spread (few tx listed) (List.mem_map_of_mem listed)
  obtain ⟨hit, member, script⟩ := List.mem_filterMap.mp inside
  exact ⟨hit, member, tx, listed, key, script, candidate⟩

/-- The pipeline finds what a full scan does exactly if every transaction is
scanned with its own secret, or pays us nothing unspent. -/
theorem picked_iff_full
    (describes : receiver.Describes scanKey txs block)
    (few : ∀ tx ∈ txs, tx.keys.length ≤ bound)
    (height : Nat) :
    (∀ outpoint output,
        PickedFinds receiver scanKey txs height outpoint output ↔
          receiver.FullFinds scanKey txs height outpoint output) ↔
      ∀ tx ∈ txs, ∀ secret,
        firstSecret (blockSecrets receiver scanKey txs) tx.outputs =
            some secret →
          secret = tx.secret scanKey ∨
            ¬ receiver.PaysUnspent secret tx ∧
              ¬ receiver.PaysUnspent (tx.secret scanKey) tx := by
  have known :
      ∀ tx ∈ txs, ∀ secret,
        firstSecret (blockSecrets receiver scanKey txs) tx.outputs =
            some secret →
          secret ∈ txs.map (fun tx => tx.secret scanKey) := by
    intro tx listed secret first
    obtain ⟨_, _, _, _, other, listed', rfl, _⟩ := firstSecret_some first
    exact List.mem_map_of_mem listed'
  constructor
  · intro same tx listed secret first
    rw [paysUnspent_iff spread (few tx listed) (known tx listed secret first),
      paysUnspent_iff spread (few tx listed) (List.mem_map_of_mem listed)]
    by_contra apart
    rw [not_or, not_and_or, not_not, not_not] at apart
    refine apart.1 ?_
    rcases apart.2 with
      ⟨utxo, member, unspent, label, tweak, finds⟩ |
        ⟨utxo, member, unspent, label, tweak, finds⟩
    · -- What the other secret finds is found under the own one as well.
      obtain ⟨tx', listed', utxo', member', label', tweak', _, finds', place⟩ :=
        (same _ _).mp
          ⟨tx, listed, secret, first, utxo, member, label, tweak, unspent,
            finds, rfl⟩
      obtain ⟨rfl, rfl⟩ :=
        describes.utxo_unique listed listed' member member'
          (congrArg Prod.fst place)
      exact finds.unique spread (few tx listed)
        (known tx listed secret first) (List.mem_map_of_mem listed) finds'
    · obtain ⟨tx', listed', secret', first', utxo', member', label', tweak', _,
          finds', place⟩ :=
        (same _ _).mpr
          ⟨tx, listed, utxo, member, label, tweak, unspent, finds, rfl⟩
      obtain ⟨rfl, rfl⟩ :=
        describes.utxo_unique listed listed' member member'
          (congrArg Prod.fst place)
      rw [first] at first'
      cases first'
      exact finds'.unique spread (few tx listed)
        (known tx listed secret first) (List.mem_map_of_mem listed) finds
  · intro own outpoint output
    constructor
    · rintro ⟨tx, listed, secret, first, utxo, member, label, tweak, unspent,
        finds, place⟩
      rcases own tx listed secret first with rfl | ⟨nothing, _⟩
      · exact ⟨tx, listed, utxo, member, label, tweak, unspent, finds, place⟩
      · rw [paysUnspent_iff spread (few tx listed)
          (known tx listed secret first)] at nothing
        exact absurd ⟨utxo, member, unspent, label, tweak, finds⟩ nothing
    · rintro ⟨tx, listed, utxo, member, label, tweak, unspent, finds, place⟩
      obtain ⟨hit, inside, candidate⟩ := FullFinds.hit spread few listed finds
      cases first :
          firstSecret (blockSecrets receiver scanKey txs) tx.outputs with
      | none =>
          exact absurd candidate (firstSecret_none.mp first hit inside)
      | some secret =>
          rcases own tx listed secret first with rfl | ⟨_, nothing⟩
          · exact ⟨tx, listed, _, first, utxo, member, label, tweak, unspent,
              finds, place⟩
          · rw [paysUnspent_iff spread (few tx listed)
              (List.mem_map_of_mem listed)] at nothing
            exact absurd ⟨utxo, member, unspent, label, tweak, finds⟩ nothing

theorem candidateMatch_cases
    (describes : receiver.Describes scanKey txs block)
    {native : List G → Except KeyError (List X)}
    (same : ∀ chunk, native chunk = receiver.candidateRows scanKey chunk)
    {chunkSize : Nat}
    (positive : 0 < chunkSize) :
    ∃ matched,
      candidateMatch native chunkSize block = .ok matched ∧
        ((∃ tx ∈ txs, ∃ utxo ∈ tx.outputs, receiver.Hit scanKey txs utxo) →
          matched = true) := by
  unfold candidateMatch
  by_cases empty : block.tweaks.isEmpty = true
  · refine ⟨false, if_pos empty, ?_⟩
    rintro ⟨tx, listed, _⟩
    rw [List.isEmpty_iff, describes.tweaks, List.map_eq_nil_iff] at empty
    rw [empty] at listed
    cases listed
  · have whole :
        (chunks chunkSize block.tweaks.length block.tweaks).flatten =
          block.tweaks :=
      flatten_chunks positive _ _ (Nat.le_refl _)
    have keys :
        candidateSpks native chunkSize block.tweaks =
          .ok (block.tweaks.flatMap (row receiver scanKey)) := by
      rw [candidateSpks, batchRows_eq spread same, whole]
      intro tweak member
      rw [whole, describes.tweaks] at member
      obtain ⟨tx, listed, rfl⟩ := List.mem_map.mp member
      exact List.mem_map.mpr ⟨tx, listed, rfl⟩
    rw [if_neg empty, keys]
    refine ⟨_, rfl, ?_⟩
    rintro ⟨tx, listed, utxo, member, other, listed', key, script, label, ours,
      own⟩
    have inside : key ∈ block.tweaks.flatMap (row receiver scanKey) := by
      rw [List.mem_flatMap]
      refine ⟨other.tweak, ?_, ?_⟩
      · rw [describes.tweaks]
        exact List.mem_map_of_mem listed'
      · rw [own]
        exact List.mem_map_of_mem ours
    rw [if_neg]
    · exact describes.filtered _
        ⟨tx, listed, utxo, member, key, inside,
          OutputScript.key?_eq_some.mp script⟩
    · rw [List.isEmpty_iff]
      exact List.ne_nil_of_mem inside

/--
The pipeline reports exactly the unspent outputs of a full scan if and only if
every transaction with a candidate has valid taproot keys only, and its first
candidate output is a candidate of its own secret, or nothing unspent is paid
there under that candidate's secret or its own.
-/
theorem pipeline_reports_exactly
    (describes : receiver.Describes scanKey txs block)
    (few : ∀ tx ∈ txs, tx.keys.length ≤ bound)
    {native : List G → Except KeyError (List X)}
    (same : ∀ chunk, native chunk = receiver.candidateRows scanKey chunk)
    {chunkSize : Nat}
    (positive : 0 < chunkSize) :
    receiver.ReportsExactly scanKey txs native chunkSize block ↔
      receiver.OwnCandidates scanKey txs := by
  obtain ⟨matched, returned, candidates⟩ :=
    candidateMatch_cases spread describes same positive
  rw [ownCandidates_iff spread, ReportsExactly, blockOutputs, returned]
  cases matched with
  | false =>
      have nothing :
          ∀ tx ∈ txs, ∀ utxo ∈ tx.outputs, ¬ receiver.Hit scanKey txs utxo :=
        fun tx listed utxo member hit =>
          Bool.false_ne_true (candidates ⟨tx, listed, utxo, member, hit⟩)
      constructor
      · intro _ tx listed secret first
        rw [firstSecret_none.mpr (nothing tx listed)] at first
        cases first
      · intro _
        refine ⟨∅, rfl, fun outpoint output => ?_⟩
        simp only [Std.ExtTreeMap.getElem?_empty, reduceCtorEq, false_iff]
        rintro ⟨tx, listed, utxo, member, label, tweak, _, finds, _⟩
        obtain ⟨hit, inside, candidate⟩ := FullFinds.hit spread few listed finds
        exact nothing tx listed hit inside candidate
  | true =>
      dsimp only
      rcases deriveOwned_cases describes spread few with
        ⟨⟨tx, listed, secret, first, invalid⟩, never⟩ |
          ⟨valid, map, ends, found⟩
      · constructor
        · rintro ⟨map, ends, _⟩
          exact absurd ends (never map)
        · intro own
          exact absurd invalid (own tx listed secret first).1
      · have secrets := picked_iff_full spread describes few block.height
        constructor
        · rintro ⟨map', ends', reports⟩ tx listed secret first
          rw [ends] at ends'
          cases ends'
          exact ⟨valid tx listed secret first,
            secrets.mp (fun outpoint output =>
              (found outpoint output).symm.trans (reports outpoint output))
              tx listed secret first⟩
        · intro own
          refine ⟨map, ends, fun outpoint output => ?_⟩
          rw [found]
          exact secrets.mpr
            (fun tx listed secret first => (own tx listed secret first).2)
            outpoint output

end Reported

end Receiver

namespace SpMatchSample

/-- The residues of a prime as scalars and points, named up to their sign. -/
def curve : SpCurve (ZMod 101) (ZMod 101) (Fin 50) where
  key point := ⟨min (point.val - 1) (100 - point.val), by omega⟩
  even key := (key.val + 1 : Nat)
  key_even := by decide +kernel
  even_ne_zero := by decide +kernel
  key_eq_iff := by decide +kernel
  generator := 1
  sharedSecretHash secret n := secret + 4 * n

/-- A recipient with its change label. -/
def receiver : Receiver curve where
  scanPubkey := 1
  spendPubkey := 1
  changeLabel := 20
  labels := [(20, 20)]
  points := by simp [curve]
  left := by decide
  right := by decide
  valid := by
    intro entry listed
    rw [List.mem_singleton.mp listed]
    decide

/-- An unspent taproot output. -/
def output (txid vout : Nat) (key : Fin 50) : UtxoData (Fin 50) :=
  { txid := txid, vout := vout, value := 7, scriptpubkey := .taproot key,
    spent := false }

/-- A transaction of secret 2 that pays us its first output key. -/
def paying : BlockTx (ZMod 101) (Fin 50) :=
  { txid := 1, tweak := 2, outputs := [output 1 0 2] }

/-- A transaction of secret 3 that pays us, next to a foreign key. -/
def apart : BlockTx (ZMod 101) (Fin 50) :=
  { txid := 2, tweak := 3, outputs := [output 2 0 40, output 2 1 3] }

/-- The same one with the key of the other transaction in front. -/
def repeating : BlockTx (ZMod 101) (Fin 50) :=
  { txid := 2, tweak := 3, outputs := [output 2 0 2, output 2 1 3] }

/-- What a scan is given of a block. -/
def blockOf
    (txs : List (BlockTx (ZMod 101) (Fin 50))) :
    BlockData (ZMod 101) (Fin 50) :=
  { height := 10
    tweaks := txs.map (fun tx => tx.tweak)
    matchAny := fun keys =>
      txs.any (fun tx => tx.keys.any (fun key => keys.contains key))
    utxos := txs.flatMap (fun tx => tx.outputs) }

def scanKey : ZMod 101 := 1

/-- A block without repeated keys. -/
def clean : List (BlockTx (ZMod 101) (Fin 50)) := [paying, apart]

def repeated : List (BlockTx (ZMod 101) (Fin 50)) := [paying, repeating]

/-- The output of ours behind the repeated key. -/
def own : OutPoint × OwnedUtxo (ZMod 101) (Fin 50) :=
  Receiver.owned 10 (none, output 2 1 3, 3)

theorem describes_blockOf
    {txs : List (BlockTx (ZMod 101) (Fin 50))}
    (txids : (txs.map (fun tx => tx.txid)).Nodup)
    (vouts :
      ∀ tx ∈ txs, (tx.outputs.map (fun utxo => utxo.vout)).Nodup)
    (named : ∀ tx ∈ txs, ∀ utxo ∈ tx.outputs, utxo.txid = tx.txid)
    (complete :
      ∀ tx ∈ txs,
        (Receiver.listedFor (blockOf txs).utxos tx.txid).filter
            (fun utxo => utxo.scriptpubkey.isP2tr) =
          tx.outputs.filter (fun utxo => utxo.scriptpubkey.isP2tr)) :
    receiver.Describes scanKey txs (blockOf txs) where
  tweaks := rfl
  txids := txids
  vouts := vouts
  named := named
  filtered := by
    rintro keys ⟨tx, listed, utxo, member, key, inside, script⟩
    refine List.any_eq_true.mpr ⟨tx, listed, List.any_eq_true.mpr
      ⟨key, ?_, by simpa using inside⟩⟩
    refine List.mem_filterMap.mpr ⟨utxo, member, ?_⟩
    rw [script]
    rfl
  listed := by
    intro utxo member
    exact List.mem_flatMap.mp member
  complete := fun tx listed _ => complete tx listed

theorem spread_clean :
    receiver.Spread (clean.map (fun tx => tx.secret scanKey)) 2 where
  tweak := by decide +kernel
  point := by decide +kernel
  apart := by decide +kernel

/-- Where no key is repeated, every candidate is one of its own transaction. -/
theorem candidates_clean :
    ∀ tx ∈ clean, ∀ key ∈ tx.keys, ∀ other ∈ clean,
      receiver.Candidate (other.secret scanKey) key →
        receiver.Candidate (tx.secret scanKey) key := by
  unfold Receiver.Candidate
  decide +kernel

end SpMatchSample

open SpMatchSample in
theorem Receiver.pipeline_reports_exactly_clean :
    SpMatchSample.receiver.ReportsExactly scanKey clean
      (SpMatchSample.receiver.candidateRows scanKey) 1 (blockOf clean) := by
  refine (Receiver.pipeline_reports_exactly spread_clean
    (describes_blockOf (by decide +kernel) (by decide +kernel)
      (by decide +kernel) (by decide +kernel))
    (by decide +kernel) (fun _ => rfl) (by decide)).mpr ?_
  intro tx listed before utxo after key split _ script other listed' candidate
  have member : utxo ∈ tx.outputs := by
    rw [split]
    simp
  have inside : key ∈ tx.keys :=
    List.mem_filterMap.mpr
      ⟨utxo, member, OutputScript.key?_eq_some.mpr script⟩
  have valid :
      ∀ tx ∈ clean, ∀ output ∈ tx.outputs,
        output.scriptpubkey.key?.isSome = true := by
    decide +kernel
  refine ⟨fun output member' bytes broken => ?_,
    Or.inl (candidates_clean tx listed key inside other listed' candidate)⟩
  have impossible := valid tx listed output member'
  rw [broken] at impossible
  cases impossible

open SpMatchSample in
/-- A transaction in front of whose own candidate stands that of another one
is scanned with the other's secret: the repeated key is reported, and the own
one is not. -/
theorem Receiver.repeated_candidate_misreported :
    ¬ SpMatchSample.receiver.ReportsExactly scanKey repeated
      (SpMatchSample.receiver.candidateRows scanKey) 1 (blockOf repeated) := by
  rintro ⟨map, ends, reports⟩
  have missed :
      (SpMatchSample.receiver.blockOutputs scanKey
            (SpMatchSample.receiver.candidateRows scanKey) 1
            (blockOf repeated)).map
          (fun result => result.toOption.map (fun map => map[own.1]?)) =
        some (some none) := by
    decide +kernel
  rw [ends] at missed
  have none_ : map[own.1]? = none := by
    simpa [Except.toOption] using missed
  have full :
      SpMatchSample.receiver.FullFinds scanKey repeated 10 own.1 own.2 := by
    exact ⟨repeating, by simp [repeated], output 2 1 3,
      by simp [repeating], none, 3, rfl,
      ⟨3, [(none, 3, 3)], rfl, by rfl, rfl⟩, rfl⟩
  rw [(reports own.1 own.2).mpr full] at none_
  cases none_

end Bwk
