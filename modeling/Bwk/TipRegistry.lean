import Bwk.AddressWindow

namespace Bwk

/-!
# Registering the watched scripts

`handle_address_tip` of `electrum/src/listener.rs`: the listener keeps a status
for every script it subscribed to, and an address tip makes it register and
subscribe the scripts below the tip.  The scan for them is skipped when the
last of them is registered already.
-/

/-- The tips the address store tells the listener, one past the last watched
index of each keychain it is to register. -/
structure AddressTip where
  recv : Nat
  change : Nat
  deriving Repr, DecidableEq

def AddressTip.tipOf (tip : AddressTip) : KeyChain → Nat
  | .receive => tip.recv
  | .change => tip.change

namespace Listener

variable {Backend StatusRows : Type}
variable [PersistenceBackend Backend Txid TxEntry]
variable [PersistenceBackend StatusRows ScriptBuf StatusEntry]

/-- Register the script of an index, unless it already is; new scripts are
collected. -/
def registerScript
    (derivator : SpkDerivator)
    (account : KeyChain)
    (collected :
      List ScriptBuf × RamStore StatusRows ScriptBuf StatusEntry)
    (index : Nat) :
    List ScriptBuf × RamStore StatusRows ScriptBuf StatusEntry :=
  let spk := derivator.scriptAt account index
  if (collected.2.get spk).isSome then
    collected
  else
    (collected.1 ++ [spk],
      collected.2.insert spk ⟨none, account, index⟩)

/-- Register the scripts of a keychain below a tip, unless the last of them
already is. -/
def registerBelow
    (derivator : SpkDerivator)
    (account : KeyChain)
    (tip : Nat)
    (statuses : RamStore StatusRows ScriptBuf StatusEntry) :
    List ScriptBuf × RamStore StatusRows ScriptBuf StatusEntry :=
  if (statuses.get (derivator.scriptAt account (tip - 1))).isSome then
    ([], statuses)
  else
    (List.range tip).foldl (registerScript derivator account) ([], statuses)

/-- Grow the watched scripts to a tip; `false` ends the listener. -/
def handleAddressTip
    (derivator : SpkDerivator)
    (listener : Listener Backend StatusRows)
    (tip : AddressTip) : Bool × Listener Backend StatusRows :=
  let (received, statuses) :=
    registerBelow derivator .receive tip.recv listener.statuses
  let (changed, grown) :=
    registerBelow derivator .change tip.change statuses
  let registered := { listener with statuses := grown }
  if received ++ changed = [] then
    (true, registered)
  else
    registered.flushStatuses.send (.subscribe (received ++ changed))

end Listener

section Registry

variable {StatusRows : Type}
variable [PersistenceBackend StatusRows ScriptBuf StatusEntry]
variable {derivator : SpkDerivator}

/-- Registering some places keeps what is registered and collects the scripts
that were not. -/
structure Registers
    (derivator : SpkDerivator)
    (places : KeyChain → Nat → Prop)
    (before after : RamStore StatusRows ScriptBuf StatusEntry)
    (collected : List ScriptBuf) : Prop where
  kept :
    ∀ (spk : ScriptBuf) (entry : StatusEntry),
      before.cache[spk]? = some entry →
        after.cache[spk]? = some entry
  fresh :
    ∀ (spk : ScriptBuf) (entry : StatusEntry),
      after.cache[spk]? = some entry →
        before.cache[spk]? = some entry ∨
          before.cache[spk]? = none ∧
            ∃ account index, places account index ∧
              spk = derivator.scriptAt account index ∧
              entry = ⟨none, account, index⟩
  covers :
    ∀ account index, places account index →
      derivator.scriptAt account index ∈ after.cache
  nodup : collected.Nodup
  mem_collected :
    ∀ spk : ScriptBuf, spk ∈ collected ↔ spk ∉ before.cache ∧ spk ∈ after.cache
  coherent : before.Coherent → after.Coherent
  untouched : collected = [] → after = before

namespace Registers

theorem none
    {places : KeyChain → Nat → Prop}
    {statuses : RamStore StatusRows ScriptBuf StatusEntry}
    (present :
      ∀ account index, places account index →
        derivator.scriptAt account index ∈ statuses.cache) :
    Registers derivator places statuses statuses [] where
  kept _ _ stored := stored
  fresh _ _ stored := Or.inl stored
  covers := present
  nodup := List.nodup_nil
  mem_collected spk := by simp
  coherent := id
  untouched _ := rfl

variable {places places' : KeyChain → Nat → Prop}
variable {before after : RamStore StatusRows ScriptBuf StatusEntry}
variable {collected : List ScriptBuf}

theorem mem
    {places : KeyChain → Nat → Prop}
    (registers : Registers derivator places before after collected)
    {spk : ScriptBuf}
    (stored : spk ∈ before.cache) :
    spk ∈ after.cache := by
  obtain ⟨entry, found⟩ := BTreeMap.mem_iff_getElem?.mp stored
  exact BTreeMap.mem_iff_getElem?.mpr ⟨entry, registers.kept spk entry found⟩

theorem trans
    {first second third : RamStore StatusRows ScriptBuf StatusEntry}
    {collected collected' : List ScriptBuf}
    (registers : Registers derivator places first second collected)
    (registers' : Registers derivator places' second third collected') :
    Registers derivator
      (fun account index => places account index ∨ places' account index)
      first third (collected ++ collected') where
  kept spk entry stored :=
    registers'.kept spk entry (registers.kept spk entry stored)
  fresh := by
    intro spk entry stored
    rcases registers'.fresh spk entry stored with
      old | ⟨missing, account, index, place, same, shape⟩
    · rcases registers.fresh spk entry old with
        older | ⟨missing, account, index, place, same, shape⟩
      · exact Or.inl older
      · exact Or.inr ⟨missing, account, index, Or.inl place, same, shape⟩
    · refine Or.inr ⟨?_, account, index, Or.inr place, same, shape⟩
      cases old : first.cache[spk]? with
      | none =>
          rfl
      | some entry =>
          rw [registers.kept spk entry old] at missing
          cases missing
  covers account index place := by
    rcases place with here | there
    · exact registers'.mem (registers.covers account index here)
    · exact registers'.covers account index there
  nodup := by
    refine List.nodup_append.mpr
      ⟨registers.nodup, registers'.nodup, ?_⟩
    intro spk old other new same
    rw [← same, registers'.mem_collected] at new
    exact new.1 ((registers.mem_collected spk).mp old).2
  mem_collected := by
    intro spk
    rw [List.mem_append, registers.mem_collected, registers'.mem_collected]
    constructor
    · rintro (⟨missing, stored⟩ | ⟨missing, stored⟩)
      · exact ⟨missing, registers'.mem stored⟩
      · exact ⟨fun old => missing (registers.mem old), stored⟩
    · rintro ⟨missing, stored⟩
      by_cases between : spk ∈ second.cache
      · exact Or.inl ⟨missing, between⟩
      · exact Or.inr ⟨between, stored⟩
  coherent initial := registers'.coherent (registers.coherent initial)
  untouched nothing := by
    obtain ⟨first, second⟩ := List.append_eq_nil_iff.mp nothing
    exact (registers'.untouched second).trans (registers.untouched first)

theorem congr
    (registers : Registers derivator places before after collected)
    (same : ∀ account index, places' account index ↔ places account index) :
    Registers derivator places' before after collected where
  kept := registers.kept
  fresh spk entry stored := by
    rcases registers.fresh spk entry stored with
      old | ⟨missing, account, index, place, shape⟩
    · exact Or.inl old
    · exact Or.inr
        ⟨missing, account, index, (same account index).mpr place, shape⟩
  covers account index place :=
    registers.covers account index ((same account index).mp place)
  nodup := registers.nodup
  mem_collected := registers.mem_collected
  coherent := registers.coherent
  untouched := registers.untouched

end Registers

variable (derivator) in
theorem registers_registerScript
    (account : KeyChain)
    (statuses : RamStore StatusRows ScriptBuf StatusEntry)
    (collected : List ScriptBuf)
    (index : Nat) :
    ∃ more after,
      Listener.registerScript derivator account (collected, statuses) index =
          (collected ++ more, after) ∧
        Registers derivator
          (fun other place => other = account ∧ place = index)
          statuses after more := by
  unfold Listener.registerScript
  dsimp only
  split
  · rename_i present
    refine ⟨[], statuses, by simp, Registers.none ?_⟩
    rintro _ _ ⟨rfl, rfl⟩
    exact Std.ExtTreeMap.mem_iff_isSome_getElem?.mpr present
  · rename_i absent
    rw [Bool.not_eq_true, Option.isSome_eq_false_iff,
      Option.isNone_iff_eq_none] at absent
    have missing :
        statuses.cache[derivator.scriptAt account index]? = Option.none :=
      absent
    have lookup (spk : ScriptBuf) :
        (statuses.insert (derivator.scriptAt account index)
            ⟨Option.none, account, index⟩).cache[spk]? =
          if derivator.scriptAt account index = spk then
            some ⟨Option.none, account, index⟩
          else
            statuses.cache[spk]? := by
      rw [RamStore.cache_insert, BTreeMap.getElem?_insert_eq]
    refine ⟨[derivator.scriptAt account index], _, rfl, ?_, ?_, ?_, ?_, ?_,
      fun coherent => coherent.insert _ _, by rintro ⟨⟩⟩
    · intro spk entry stored
      rw [lookup, if_neg]
      · exact stored
      · rintro rfl
        rw [missing] at stored
        cases stored
    · intro spk entry stored
      rw [lookup] at stored
      split at stored
      · rename_i same
        cases stored
        exact Or.inr ⟨same ▸ missing, account, index, ⟨rfl, rfl⟩, same.symm,
          rfl⟩
      · exact Or.inl stored
    · rintro _ _ ⟨rfl, rfl⟩
      simp
    · exact List.nodup_singleton _
    · intro spk
      rw [List.mem_singleton]
      constructor
      · rintro rfl
        exact ⟨BTreeMap.not_mem_iff_getElem?.mpr missing, by simp⟩
      · rintro ⟨old, new⟩
        rw [RamStore.cache_insert, Std.ExtTreeMap.mem_insert,
          Std.compare_eq_iff_eq] at new
        exact (new.resolve_right old).symm

variable (derivator) in
theorem registers_registerScripts
    (account : KeyChain)
    (indices : List Nat)
    (statuses : RamStore StatusRows ScriptBuf StatusEntry)
    (collected : List ScriptBuf) :
    ∃ more after,
      indices.foldl (Listener.registerScript derivator account)
          (collected, statuses) =
          (collected ++ more, after) ∧
        Registers derivator
          (fun other place => other = account ∧ place ∈ indices)
          statuses after more := by
  induction indices generalizing statuses collected with
  | nil =>
      exact ⟨[], statuses, by simp, Registers.none (by simp)⟩
  | cons index later inductionHypothesis =>
      obtain ⟨more, between, here, registers⟩ :=
        registers_registerScript derivator account statuses
          collected index
      obtain ⟨further, after, rest, registers'⟩ :=
        inductionHypothesis between (collected ++ more)
      refine ⟨more ++ further, after, ?_,
        (registers.trans registers').congr (fun other place => ?_)⟩
      · rw [List.foldl_cons, here, rest, List.append_assoc]
      · rw [List.mem_cons]
        tauto

/-- The registered scripts are those below a bound of each keychain. -/
structure Known
    (derivator : SpkDerivator)
    (bound : KeyChain → Nat)
    (statuses : RamStore StatusRows ScriptBuf StatusEntry) : Prop where
  mem_iff :
    ∀ spk : ScriptBuf, spk ∈ statuses.cache ↔
      ∃ account, ∃ index < bound account,
        spk = derivator.scriptAt account index
  placed :
    ∀ (spk : ScriptBuf) (entry : StatusEntry), statuses.cache[spk]? = some entry →
      spk = derivator.scriptAt entry.keychain entry.index

theorem Known.registers
    {bound tip : KeyChain → Nat}
    {before after : RamStore StatusRows ScriptBuf StatusEntry}
    {collected : List ScriptBuf}
    (known : Known derivator bound before)
    (registers :
      Registers derivator (fun account index => index < tip account)
        before after collected) :
    Known derivator (fun account => max (bound account) (tip account))
      after where
  mem_iff := by
    intro spk
    constructor
    · intro stored
      obtain ⟨entry, found⟩ := BTreeMap.mem_iff_getElem?.mp stored
      rcases registers.fresh spk entry found with
        old | ⟨_, account, index, place, same, _⟩
      · obtain ⟨account, index, below, same⟩ :=
          (known.mem_iff spk).mp (BTreeMap.mem_iff_getElem?.mpr ⟨entry, old⟩)
        exact ⟨account, index, Nat.lt_of_lt_of_le below (Nat.le_max_left _ _),
          same⟩
      · exact ⟨account, index, Nat.lt_of_lt_of_le place (Nat.le_max_right _ _),
          same⟩
    · rintro ⟨account, index, below, rfl⟩
      rcases Nat.lt_or_ge index (tip account) with new | old
      · exact registers.covers account index new
      · exact registers.mem ((known.mem_iff _).mpr
          ⟨account, index, by omega, rfl⟩)
  placed := by
    intro spk entry stored
    rcases registers.fresh spk entry stored with
      old | ⟨_, account, index, _, same, rfl⟩
    · exact known.placed spk entry old
    · exact same

variable {bound : KeyChain → Nat}
variable {statuses : RamStore StatusRows ScriptBuf StatusEntry}

theorem Known.scriptAt_mem
    (known : Known derivator bound statuses)
    (distinct : derivator.Distinct)
    {account : KeyChain}
    {index : Nat} :
    derivator.scriptAt account index ∈ statuses.cache ↔
      index < bound account := by
  rw [known.mem_iff]
  constructor
  · rintro ⟨other, place, below, same⟩
    obtain ⟨rfl, rfl⟩ := distinct _ _ _ _ same
    exact below
  · intro below
    exact ⟨account, index, below, rfl⟩

/-- The scripts of a keychain below a tip are registered, whether the scan for
them is skipped or not. -/
theorem registers_registerBelow
    (distinct : derivator.Distinct)
    (known : Known derivator bound statuses)
    (account : KeyChain)
    (tip : Nat) :
    ∃ collected after,
      Listener.registerBelow derivator account tip statuses =
          (collected, after) ∧
        Registers derivator
          (fun other index => other = account ∧ index < tip)
          statuses after collected := by
  unfold Listener.registerBelow
  split
  · rename_i present
    refine ⟨[], statuses, rfl, Registers.none ?_⟩
    rintro other index ⟨same, below⟩
    rw [same]
    have last :
        tip - 1 < bound account :=
      (known.scriptAt_mem distinct).mp
        (Std.ExtTreeMap.mem_iff_isSome_getElem?.mpr present)
    exact (known.scriptAt_mem distinct).mpr (by omega)
  · obtain ⟨more, after, whole, registers⟩ :=
      registers_registerScripts derivator account
        (List.range tip) statuses []
    refine ⟨more, after, whole, registers.congr (fun other index => ?_)⟩
    rw [List.mem_range]

/-- An address tip registers every script below it and subscribes to those that
were not registered. -/
theorem handleAddressTip_spec
    {Backend : Type}
    (distinct : derivator.Distinct)
    {listener : Listener Backend StatusRows}
    (known : Known derivator bound listener.statuses)
    (connected : listener.connected = true)
    (tip : AddressTip) :
    ∃ collected grown,
      Registers derivator
          (fun account index => index < tip.tipOf account)
          listener.statuses grown collected ∧
        listener.handleAddressTip derivator tip =
          (true,
            if collected = [] then
              { listener with statuses := grown }
            else
              { listener with
                statuses := grown.flush.2
                sent := listener.sent ++ [.subscribe collected] }) := by
  obtain ⟨received, between, here, registers⟩ :=
    registers_registerBelow distinct known .receive tip.recv
  have below :
      Registers derivator
        (fun account index =>
          index < if account = .receive then tip.recv else 0)
        listener.statuses between received :=
    registers.congr (fun account index => by cases account <;> simp)
  have grownKnown := known.registers below
  obtain ⟨changed, after, there, registers'⟩ :=
    registers_registerBelow distinct grownKnown .change tip.change
  refine ⟨received ++ changed, after,
    (registers.trans registers').congr (fun account index => ?_), ?_⟩
  · cases account <;> simp [AddressTip.tipOf]
  · unfold Listener.handleAddressTip
    rw [here]
    dsimp only
    rw [there]
    dsimp only
    split
    · rfl
    · simp only [Listener.flushStatuses, Listener.send, connected, if_true]

end Registry

end Bwk
