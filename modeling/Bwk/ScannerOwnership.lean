import Bwk.ScannerThreads

namespace Bwk.ScanThread

/-!
# One owner of the statuses store

The store moves from the scanner to a listener, and from there through one
handback channel after the other.  What a step takes from one place it puts
into another, so one place holds the store after every run.
-/

variable {Server S U : Type}

variable {α β : Type} (pick : α → Option β) (change : α → α) {index : Nat}

theorem filterMap_modify_perm
    {entries : List α}
    {entry : α}
    (found : entries[index]? = some entry) :
    ((entries.modify index change).filterMap pick ++
        (pick entry).toList).Perm
      (entries.filterMap pick ++ (pick (change entry)).toList) := by
  induction entries generalizing index with
  | nil =>
      cases found
  | cons head rest inductionHypothesis =>
      cases index with
      | zero =>
          cases found
          rw [List.modify_zero_cons, List.filterMap_cons, List.filterMap_cons]
          cases pick entry with
          | none =>
              cases pick (change entry) with
              | none => exact List.Perm.refl _
              | some _ =>
                  rw [Option.toList_none, List.append_nil]
                  exact (List.perm_append_singleton _ _).symm
          | some _ =>
              cases pick (change entry) with
              | none =>
                  rw [Option.toList_none, List.append_nil]
                  exact List.perm_append_singleton _ _
              | some _ =>
                  exact
                    ((List.perm_append_singleton _ _).cons _).trans
                      ((List.Perm.swap _ _ _).trans
                        ((List.perm_append_singleton _ _).symm.cons _))
      | succ index =>
          have rest := inductionHypothesis found
          rw [List.modify_succ_cons, List.filterMap_cons, List.filterMap_cons]
          cases pick head with
          | none => exact rest
          | some _ => exact rest.cons _

theorem filterMap_modify_of_same
    (same : ∀ entry, pick (change entry) = pick entry)
    (entries : List α)
    (index : Nat) :
    (entries.modify index change).filterMap pick = entries.filterMap pick := by
  induction entries generalizing index with
  | nil =>
      rw [List.modify_nil]
  | cons head rest inductionHypothesis =>
      cases index with
      | zero =>
          rw [List.modify_zero_cons, List.filterMap_cons, List.filterMap_cons,
            same]
      | succ index =>
          rw [List.modify_succ_cons, List.filterMap_cons, List.filterMap_cons,
            inductionHypothesis]

theorem found_of_modify
    {α : Type}
    {change : α → α}
    {entries : List α}
    {changed index : Nat}
    {entry : α}
    (found : (entries.modify changed change)[index]? = some entry) :
    (index = changed ∧
        ∃ before, entries[changed]? = some before ∧ change before = entry) ∨
      index ≠ changed ∧ entries[index]? = some entry := by
  rw [List.getElem?_modify] at found
  by_cases same : index = changed
  · subst same
    obtain ⟨before, present, rfl⟩ := Option.map_eq_some_iff.mp found
    exact .inl ⟨rfl, before, present, (if_pos rfl).symm⟩
  · obtain ⟨before, present, rfl⟩ := Option.map_eq_some_iff.mp found
    rw [if_neg (Ne.symm same)]
    exact .inr ⟨same, present⟩

theorem found_of_append
    {α : Type}
    {entries : List α}
    {added entry : α}
    (found : (entries ++ [added])[index]? = some entry) :
    (entries[index]? = some entry ∧ index < entries.length) ∨
      index = entries.length ∧ added = entry := by
  by_cases inside : index < entries.length
  · rw [List.getElem?_append_left inside] at found
    exact .inl ⟨found, inside⟩
  · have bound := (List.getElem?_eq_some_iff.mp found).1
    rw [List.length_append, List.length_singleton] at bound
    have last : index = entries.length := by omega
    subst last
    rw [List.getElem?_concat_length] at found
    exact .inr ⟨rfl, Option.some.inj found⟩

namespace ElectrumScanner

/-- The store a thread holds. -/
def held (listener : ListenerThread Server S) : Option S :=
  listener.phase.held

/-- Every store held: by the scanner, by a thread, by a channel. -/
def holdings (scanner : ElectrumScanner Server S) : List S :=
  scanner.statusesStore.toList ++ scanner.threads.filterMap held ++
    scanner.handbacks.filterMap Handback.message

def stored
    (update : S → U → S)
    (store : S) : ScannerEvent Server U → S
  | .updated _ change => update store change
  | _ => store

/-- The store with every update made so far. -/
def latest
    (update : S → U → S)
    (initial : S)
    (events : List (ScannerEvent Server U)) : S :=
  events.foldl (stored update) initial

/-- The thread a new listener waits for. -/
def previous : Nat → Option Nat
  | 0 => none
  | thread + 1 => some thread

/-- Whether a listener waits for a store handed back. -/
def waiting (listener : ListenerThread Server S) : Prop :=
  ∃ channel, listener.phase = .resolving (.handback channel)

/--
What every step keeps: the scanner holds the store until the first listener is
spawned and the last channel from then on; every other channel is received from
by the next listener; and a channel carries the store from the moment its
listener hands it back until it is received.
-/
structure Sound (scanner : ElectrumScanner Server S) : Prop where
  paired : scanner.handbacks.length = scanner.threads.length
  direct : scanner.statusesStore.isSome = (scanner.threads.length == 0)
  last : scanner.statusesRx = previous scanner.threads.length
  waits :
    ∀ (thread : Nat) (listener : ListenerThread Server S) channel,
      scanner.threads[thread]? = some listener →
        listener.phase = .resolving (.handback channel) →
          ∃ earlier, channel = some earlier ∧ earlier + 1 = thread
  received :
    ∀ (channel : Nat) (handback : Handback S),
      scanner.handbacks[channel]? = some handback →
        channel + 1 = scanner.threads.length ∨
            (∃ listener, scanner.threads[channel + 1]? = some listener ∧
              waiting listener) →
          handback.receiver = true
  sending :
    ∀ (channel : Nat) (handback : Handback S)
      (listener : ListenerThread Server S),
      scanner.handbacks[channel]? = some handback →
        scanner.threads[channel]? = some listener →
          (listener.phase.handedBack = false →
            handback.sender = true ∧ handback.receiver = true ∧
              handback.message = none)
  sent :
    ∀ (channel : Nat) (handback : Handback S)
      (listener : ListenerThread Server S),
      scanner.handbacks[channel]? = some handback →
        scanner.threads[channel]? = some listener →
          listener.phase.handedBack = true →
            handback.receiver = true → handback.message.isSome = true

theorem new_sound (server : Option Server) (store : S) :
    (new server store).Sound where
  paired := rfl
  direct := rfl
  last := rfl
  waits _ _ _ found := by cases found
  received _ _ found := by cases found
  sending _ _ _ found := by cases found
  sent _ _ _ found := by cases found

variable {scanner next : ElectrumScanner Server S}

variable {thread : Nat} {listener : ListenerThread Server S}
variable {handback : Handback S} {phase : Phase S}

/-- A thread that moves on without handing the store back, and not to a wait,
keeps the scanner sound. -/
theorem Sound.place
    (sound : scanner.Sound)
    (found : scanner.threads[thread]? = some listener)
    (before : listener.phase.handedBack = false)
    (after : phase.handedBack = false)
    (moves : ∀ channel, phase ≠ .resolving (.handback channel)) :
    (scanner.place thread phase).Sound where
  paired := by
    show _ = (scanner.threads.modify _ _).length
    rw [List.length_modify]
    exact sound.paired
  direct := by
    show _ = ((scanner.threads.modify _ _).length == 0)
    rw [List.length_modify]
    exact sound.direct
  last := by
    show _ = previous (scanner.threads.modify _ _).length
    rw [List.length_modify]
    exact sound.last
  waits other listener' channel found' waits' := by
    rcases found_of_modify found' with ⟨_, _, _, rfl⟩ | ⟨_, found'⟩
    · exact absurd waits' (moves channel)
    · exact sound.waits other listener' channel found' waits'
  received channel handback found' receives := by
    apply sound.received channel handback found'
    rcases receives with last | ⟨listener', found', waits⟩
    · rw [ElectrumScanner.place, List.length_modify] at last
      exact .inl last
    · rcases found_of_modify found' with ⟨_, _, _, rfl⟩ | ⟨_, found'⟩
      · obtain ⟨other, waits⟩ := waits
        exact absurd waits (moves other)
      · exact .inr ⟨listener', found', waits⟩
  sending channel handback listener' found' foundThread := by
    rcases found_of_modify foundThread with ⟨rfl, _, _, rfl⟩ | ⟨_, same⟩
    · intro _
      exact sound.sending _ handback listener found' found before
    · exact sound.sending channel handback listener' found' same
  sent channel handback listener' found' foundThread := by
    rcases found_of_modify foundThread with ⟨rfl, _, _, rfl⟩ | ⟨_, same⟩
    · intro back
      exact absurd (after.symm.trans back) Bool.false_ne_true
    · exact sound.sent channel handback listener' found' same

theorem Sound.of_same
    (sound : scanner.Sound)
    (store : next.statusesStore = scanner.statusesStore)
    (rx : next.statusesRx = scanner.statusesRx)
    (handbacks : next.handbacks = scanner.handbacks)
    (phases :
      next.threads.map ListenerThread.phase =
        scanner.threads.map ListenerThread.phase) :
    next.Sound := by
  have lengths : next.threads.length = scanner.threads.length := by
    simpa using congrArg List.length phases
  have found :
      ∀ {thread : Nat} {listener : ListenerThread Server S},
        next.threads[thread]? = some listener →
          ∃ before, scanner.threads[thread]? = some before ∧
            before.phase = listener.phase := by
    intro thread listener present
    have same := congrArg (·[thread]?) phases
    simp only [List.getElem?_map, present, Option.map_some] at same
    exact Option.map_eq_some_iff.mp same.symm
  exact
    { paired := by rw [handbacks, lengths, sound.paired]
      direct := by rw [store, lengths, sound.direct]
      last := by rw [rx, lengths, sound.last]
      waits := by
        intro thread listener channel present waits
        obtain ⟨before, was, phase⟩ := found present
        exact sound.waits thread before channel was (phase.trans waits)
      received := by
        intro channel handback present receives
        rw [handbacks] at present
        apply sound.received channel handback present
        rw [lengths] at receives
        rcases receives with last | ⟨listener, present, other, waits⟩
        · exact .inl last
        · obtain ⟨before, was, phase⟩ := found present
          exact .inr ⟨before, was, other, phase.trans waits⟩
      sending := by
        intro channel handback listener present foundThread
        obtain ⟨before, was, phase⟩ := found foundThread
        rw [handbacks] at present
        rw [← phase]
        exact sound.sending channel handback before present was
      sent := by
        intro channel handback listener present foundThread
        obtain ⟨before, was, phase⟩ := found foundThread
        rw [handbacks] at present
        rw [← phase]
        exact sound.sent channel handback before present was }

theorem Sound.awaited
    (sound : scanner.Sound)
    {channel : Option Nat}
    (found : scanner.threads[thread]? = some listener)
    (waits : listener.phase = .resolving (.handback channel)) :
    ∃ earlier handback,
      channel = some earlier ∧ earlier + 1 = thread ∧
        scanner.handbacks[earlier]? = some handback ∧
        (handback.message.isSome = true ∨ handback.sender = true) := by
  obtain ⟨earlier, rfl, rfl⟩ := sound.waits thread listener channel found waits
  have inside : earlier < scanner.threads.length := by
    have := (List.getElem?_eq_some_iff.mp found).1
    omega
  have present :
      scanner.handbacks[earlier]? =
        some (scanner.handbacks.get ⟨earlier, sound.paired ▸ inside⟩) :=
    List.getElem?_eq_getElem _
  have sender : scanner.threads[earlier]? = some scanner.threads[earlier] :=
    List.getElem?_eq_getElem inside
  have receives :=
    sound.received earlier _ present (.inr ⟨listener, found, _, waits⟩)
  refine ⟨earlier, _, rfl, rfl, present, ?_⟩
  cases back : scanner.threads[earlier].phase.handedBack with
  | false => exact .inr (sound.sending earlier _ _ present sender back).1
  | true => exact .inl (sound.sent earlier _ _ present sender back receives)

theorem Sound.receive
    (sound : scanner.Sound)
    {earlier : Nat}
    {store : S}
    (found : scanner.threads[earlier + 1]? = some listener)
    (waits :
      listener.phase = .resolving (.handback (some earlier)))
    (present : scanner.handbacks[earlier]? = some handback)
    (message : handback.message = some store) :
    (ElectrumScanner.place
      { scanner with
        handbacks := scanner.handbacks.modify earlier Handback.dropReceiver }
      (earlier + 1) (.checkingStop store)).Sound := by
  have placed :=
    sound.place found (by rw [waits]; rfl)
      (show (Phase.checkingStop store).handedBack = false from rfl) nofun
  have back :
      ∀ listener', scanner.threads[earlier]? = some listener' →
        listener'.phase.handedBack = true := by
    intro listener' foundThread
    by_contra notBack
    have empty :=
      (sound.sending earlier handback listener' present foundThread
        (Bool.eq_false_of_not_eq_true notBack)).2.2
    rw [message] at empty
    cases empty
  have backPlaced :
      ∀ listener',
        (scanner.place (earlier + 1) (.checkingStop store)).threads[earlier]? =
          some listener' →
            listener'.phase.handedBack = true := by
    intro listener' foundThread
    rcases found_of_modify foundThread with ⟨impossible, _⟩ | ⟨_, same⟩
    · omega
    · exact back listener' same
  exact
    { paired := by
        show (scanner.handbacks.modify _ _).length = _
        rw [List.length_modify]
        exact placed.paired
      direct := placed.direct
      last := placed.last
      waits := placed.waits
      received := by
        intro channel handback' present' receives
        rcases found_of_modify present' with ⟨rfl, _⟩ | ⟨_, present'⟩
        · rcases receives with last | ⟨listener', found', _, waits'⟩
          · have inside := (List.getElem?_eq_some_iff.mp found).1
            rw [ElectrumScanner.place, List.length_modify] at last
            exact absurd last (Nat.ne_of_lt inside)
          · rcases found_of_modify found' with ⟨_, _, _, rfl⟩ | ⟨other, _⟩
            · cases waits'
            · exact absurd rfl other
        · exact placed.received channel handback' present' receives
      sending := by
        intro channel handback' listener' present' foundThread notBack
        rcases found_of_modify present' with ⟨rfl, _⟩ | ⟨_, present'⟩
        · have := backPlaced listener' foundThread
          rw [notBack] at this
          cases this
        · exact
            placed.sending channel handback' listener' present' foundThread
              notBack
      sent := by
        intro channel handback' listener' present' foundThread isBack receives
        rcases found_of_modify present' with ⟨rfl, _, _, rfl⟩ | ⟨_, present'⟩
        · cases receives
        · exact
            placed.sent channel handback' listener' present' foundThread
              isBack receives }

/-- A thread that has handed the store back, and its channel with it, keeps the
scanner sound. -/
theorem Sound.pass
    (sound : scanner.Sound)
    {change : Handback S → Handback S}
    (found : scanner.threads[thread]? = some listener)
    (back : phase.handedBack = true)
    (received :
      ∀ handback : Handback S,
        handback.receiver = true → (change handback).receiver = true)
    (sent :
      ∀ handback : Handback S,
        scanner.handbacks[thread]? = some handback →
          (change handback).receiver = true →
            (change handback).message.isSome = true) :
    Sound
      { scanner.place thread phase with
        handbacks := scanner.handbacks.modify thread change } where
  paired := by
    show (scanner.handbacks.modify _ _).length =
      (scanner.threads.modify _ _).length
    rw [List.length_modify, List.length_modify]
    exact sound.paired
  direct := by
    show _ = ((scanner.threads.modify _ _).length == 0)
    rw [List.length_modify]
    exact sound.direct
  last := by
    show _ = previous (scanner.threads.modify _ _).length
    rw [List.length_modify]
    exact sound.last
  waits other listener' channel found' waits' := by
    rcases found_of_modify found' with ⟨_, _, _, rfl⟩ | ⟨_, found'⟩
    · subst waits'
      cases back
    · exact sound.waits other listener' channel found' waits'
  received channel handback present receives := by
    have receives' :
        channel + 1 = scanner.threads.length ∨
          (∃ listener, scanner.threads[channel + 1]? = some listener ∧
            waiting listener) := by
      rcases receives with last | ⟨listener', found', other, waits⟩
      · rw [ElectrumScanner.place, List.length_modify] at last
        exact .inl last
      · rcases found_of_modify found' with ⟨_, _, _, rfl⟩ | ⟨_, found'⟩
        · subst waits
          cases back
        · exact .inr ⟨listener', found', other, waits⟩
    rcases found_of_modify present with ⟨rfl, before, was, rfl⟩ | ⟨_, same⟩
    · exact received before (sound.received _ before was receives')
    · exact sound.received channel handback same receives'
  sending channel handback listener' present foundThread notBack := by
    rcases found_of_modify foundThread with ⟨rfl, _, _, rfl⟩ | ⟨other, same⟩
    · exact absurd (notBack.symm.trans back) Bool.false_ne_true
    · rcases found_of_modify present with ⟨impossible, _⟩ | ⟨_, present⟩
      · exact absurd impossible other
      · exact sound.sending channel handback listener' present same notBack
  sent channel handback listener' present foundThread isBack receives := by
    rcases found_of_modify present with ⟨rfl, before, was, rfl⟩ | ⟨other, same⟩
    · exact sent before was receives
    · rcases found_of_modify foundThread with ⟨impossible, _⟩ | ⟨_, found'⟩
      · exact absurd impossible other
      · exact
          sound.sent channel handback listener' same found' isBack receives

theorem Sound.handBack
    (sound : scanner.Sound)
    (found : scanner.threads[thread]? = some listener)
    (store : S) :
    (scanner.handBack thread store).Sound := by
  apply sound.pass found rfl
  · intro handback receiver
    rw [if_pos receiver]
    exact receiver
  · intro handback _ receiver
    by_cases receives : handback.receiver = true
    · rw [if_pos receives]
      rfl
    · rw [if_neg receives] at receiver
      exact absurd receiver receives

/-- A thread that exits after handing the store back keeps the scanner sound.
-/
theorem Sound.exit
    (sound : scanner.Sound)
    (found : scanner.threads[thread]? = some listener)
    (phase : listener.phase = .returning) :
    Sound
      { scanner.place thread .finished with
        handbacks :=
          scanner.handbacks.modify thread fun handback =>
            { handback with sender := false } } := by
  apply sound.pass found rfl
  · intro handback receiver
    exact receiver
  · intro handback present receiver
    exact
      sound.sent thread handback listener present found (by rw [phase]; rfl)
        receiver

theorem Sound.source_cases
    (sound : scanner.Sound) :
    (∃ store, scanner.statusesStore = some store ∧
        scanner.threads.length = 0 ∧ scanner.source = .direct store) ∨
      ∃ earlier, scanner.statusesStore = none ∧
        earlier + 1 = scanner.threads.length ∧
        scanner.source = .handback (some earlier) := by
  have direct := sound.direct
  have last := sound.last
  cases store : scanner.statusesStore with
  | some held =>
      rw [store] at direct
      refine .inl ⟨held, rfl, by simpa using direct.symm, ?_⟩
      rw [ElectrumScanner.source, store]
  | none =>
      rw [store] at direct
      cases count : scanner.threads.length with
      | zero =>
          rw [count] at direct
          cases direct
      | succ earlier =>
          rw [count] at last
          refine .inr ⟨earlier, rfl, rfl, ?_⟩
          rw [ElectrumScanner.source, store, last]
          rfl

theorem Sound.keptHandbacks
    (sound : scanner.Sound) :
    scanner.keptHandbacks = scanner.handbacks := by
  have last := sound.last
  rcases sound.source_cases with
    ⟨store, direct, none, _⟩ | ⟨earlier, direct, _, _⟩
  · rw [none] at last
    rw [ElectrumScanner.keptHandbacks, direct, last]
    rfl
  · rw [ElectrumScanner.keptHandbacks, direct]

theorem Sound.spawn
    (sound : scanner.Sound)
    (server : Server) :
    (scanner.spawnListener server).Sound where
  paired := by
    show (scanner.keptHandbacks ++ _).length = (scanner.threads ++ _).length
    rw [sound.keptHandbacks, List.length_append, List.length_append,
      sound.paired]
    rfl
  direct := by
    show false = ((scanner.threads ++ _).length == 0)
    rw [List.length_append]
    rfl
  last := by
    show some scanner.handbacks.length =
      previous (scanner.threads ++ _).length
    rw [List.length_append, sound.paired]
    rfl
  waits thread listener channel found waits := by
    rcases found_of_append found with ⟨old, _⟩ | ⟨rfl, rfl⟩
    · exact sound.waits thread listener channel old waits
    · rcases sound.source_cases with
        ⟨store, _, _, source⟩ | ⟨earlier, _, last, source⟩
      · rw [show scanner.source = _ from source] at waits
        cases waits
      · rw [show scanner.source = _ from source] at waits
        cases waits
        exact ⟨earlier, rfl, last⟩
  received channel handback found receives := by
    simp only [spawnListener, sound.keptHandbacks] at found
    rcases found_of_append found with ⟨old, inside⟩ | ⟨rfl, rfl⟩
    · apply sound.received channel handback old
      rw [sound.paired] at inside
      rcases receives with last | ⟨listener, found, waits⟩
      · rw [spawnListener, List.length_append, List.length_singleton] at last
        omega
      · rcases found_of_append found with ⟨old, _⟩ | ⟨last, _⟩
        · exact .inr ⟨listener, old, waits⟩
        · exact .inl last
    · rfl
  sending channel handback listener found foundThread notBack := by
    simp only [spawnListener, sound.keptHandbacks] at found
    rcases found_of_append found with ⟨old, inside⟩ | ⟨rfl, rfl⟩
    · rcases found_of_append foundThread with ⟨oldThread, _⟩ | ⟨rfl, _⟩
      · exact sound.sending channel handback listener old oldThread notBack
      · rw [sound.paired] at inside
        exact absurd inside (Nat.lt_irrefl _)
    · exact ⟨rfl, rfl, rfl⟩
  sent channel handback listener found foundThread isBack := by
    simp only [spawnListener, sound.keptHandbacks] at found
    rcases found_of_append found with ⟨old, inside⟩ | ⟨rfl, rfl⟩
    · rcases found_of_append foundThread with ⟨oldThread, _⟩ | ⟨rfl, _⟩
      · exact sound.sent channel handback listener old oldThread isBack
      · rw [sound.paired] at inside
        exact absurd inside (Nat.lt_irrefl _)
    · rcases found_of_append foundThread with ⟨_, inside⟩ | ⟨_, rfl⟩
      · rw [sound.paired] at inside
        exact absurd inside (Nat.lt_irrefl _)
      · cases isBack

theorem holdings_of_same
    (store : next.statusesStore = scanner.statusesStore)
    (handbacks : next.handbacks = scanner.handbacks)
    (phases :
      next.threads.map ListenerThread.phase =
        scanner.threads.map ListenerThread.phase) :
    next.holdings = scanner.holdings := by
  have threads :
      next.threads.filterMap held = scanner.threads.filterMap held := by
    have picked := congrArg (List.filterMap Phase.held) phases
    rw [List.filterMap_map, List.filterMap_map] at picked
    exact picked
  rw [holdings, holdings, store, handbacks, threads]

theorem holdings_place
    (found : scanner.threads[thread]? = some listener)
    (phase : Phase S) :
    ((scanner.place thread phase).holdings : Multiset S) +
        listener.phase.held.toList =
      (scanner.holdings : Multiset S) + phase.held.toList := by
  have moved :
      ((scanner.place thread phase).threads.filterMap held : Multiset S) +
          listener.phase.held.toList =
        (scanner.threads.filterMap held : Multiset S) + phase.held.toList :=
    Multiset.coe_eq_coe.mpr (filterMap_modify_perm held _ found)
  simp only [holdings, ← Multiset.coe_add] at moved ⊢
  rw [add_right_comm _ _ (listener.phase.held.toList : Multiset S),
    add_assoc _ _ (listener.phase.held.toList : Multiset S), moved]
  simp only [ElectrumScanner.place]
  abel

theorem holdings_place_of_same
    (found : scanner.threads[thread]? = some listener)
    (same : phase.held = listener.phase.held)
    {store : S}
    (owned : scanner.holdings = [store]) :
    (scanner.place thread phase).holdings = [store] := by
  have moved := holdings_place found phase
  rw [same, add_left_inj, Multiset.coe_eq_coe, owned] at moved
  exact List.perm_singleton.mp moved

theorem holdings_modify
    {channel : Nat}
    (found : scanner.handbacks[channel]? = some handback)
    (change : Handback S → Handback S) :
    (({ scanner with
          handbacks := scanner.handbacks.modify channel change }).holdings :
            Multiset S) +
        handback.message.toList =
      (scanner.holdings : Multiset S) + (change handback).message.toList := by
  have moved :
      ((scanner.handbacks.modify channel change).filterMap Handback.message :
          Multiset S) +
          handback.message.toList =
        (scanner.handbacks.filterMap Handback.message : Multiset S) +
          (change handback).message.toList :=
    Multiset.coe_eq_coe.mpr (filterMap_modify_perm Handback.message _ found)
  simp only [holdings, ← Multiset.coe_add]
  rw [add_assoc, moved]
  abel

theorem held_of_owned
    {store kept : S}
    (owned : scanner.holdings = [store])
    (found : scanner.threads[thread]? = some listener)
    (holds : listener.phase.held = some kept) :
    kept = store := by
  have present : kept ∈ scanner.holdings := by
    apply List.mem_append_left
    apply List.mem_append_right
    exact List.mem_filterMap.mpr
      ⟨listener, List.mem_of_getElem? found, holds⟩
  rw [owned] at present
  exact List.mem_singleton.mp present

/-- A scanner that is sound and has one store in one place. -/
structure Owner (scanner : ElectrumScanner Server S) (store : S) : Prop where
  sound : scanner.Sound
  owned : scanner.holdings = [store]

variable {store : S}

variable {update : S → U → S} {reopenStatuses : Option S} {kept : S}

theorem Owner.place
    (owner : scanner.Owner store)
    (found : scanner.threads[thread]? = some listener)
    (before : listener.phase.held = some kept)
    (after : phase.held = some kept) :
    (scanner.place thread phase).Owner store where
  sound := by
    apply owner.sound.place found
    · cases was : listener.phase <;> rw [was] at before <;>
        first | rfl | cases before
    · cases was : phase <;> rw [was] at after <;>
        first | rfl | cases after
    · rintro channel rfl
      cases after
  owned :=
    holdings_place_of_same found (after.trans before.symm) owner.owned

theorem Owner.of_same
    (owner : scanner.Owner store)
    (kept : next.statusesStore = scanner.statusesStore)
    (rx : next.statusesRx = scanner.statusesRx)
    (handbacks : next.handbacks = scanner.handbacks)
    (phases :
      next.threads.map ListenerThread.phase =
        scanner.threads.map ListenerThread.phase) :
    next.Owner store where
  sound := owner.sound.of_same kept rx handbacks phases
  owned := (holdings_of_same kept handbacks phases).trans owner.owned

theorem raiseStop_phases
    (threads : List (ListenerThread Server S))
    (thread : Option Nat) :
    (raiseStop threads thread).map ListenerThread.phase =
      threads.map ListenerThread.phase := by
  cases thread with
  | none => rfl
  | some thread =>
      have same :=
        filterMap_modify_of_same
          (fun listener : ListenerThread Server S => some listener.phase)
          (fun listener => { listener with stopRequest := true })
          (fun _ => rfl) threads thread
      rw [List.filterMap_eq_map'] at same
      exact same

theorem Owner.receive
    (owner : scanner.Owner store)
    {earlier : Nat}
    {sent : S}
    (found : scanner.threads[earlier + 1]? = some listener)
    (waits : listener.phase = .resolving (.handback (some earlier)))
    (present : scanner.handbacks[earlier]? = some handback)
    (message : handback.message = some sent) :
    (ElectrumScanner.place
      { scanner with
        handbacks := scanner.handbacks.modify earlier Handback.dropReceiver }
      (earlier + 1) (.checkingStop sent)).Owner store where
  sound := owner.sound.receive found waits present message
  owned := by
    let received : ElectrumScanner Server S :=
      { scanner with
        handbacks := scanner.handbacks.modify earlier Handback.dropReceiver }
    have found' : received.threads[earlier + 1]? = some listener := found
    have taken : (received.holdings : Multiset S) + _ = _ :=
      holdings_modify present Handback.dropReceiver
    have placed := holdings_place found' (.checkingStop sent)
    rw [message] at taken
    rw [waits] at placed
    have exchanged :
        ((received.place (earlier + 1) (.checkingStop sent)).holdings :
            Multiset S) =
          scanner.holdings := by
      simpa [Phase.held, Handback.dropReceiver] using placed.trans taken
    rw [owner.owned] at exchanged
    exact Multiset.coe_eq_singleton.mp exchanged

theorem Owner.handBack
    (owner : scanner.Owner store)
    (found : scanner.threads[thread]? = some listener)
    (phase : listener.phase = .handingBack kept) :
    (scanner.handBack thread kept).Owner store where
  sound := owner.sound.handBack found kept
  owned := by
    have inside : thread < scanner.handbacks.length := by
      rw [owner.sound.paired]
      exact (List.getElem?_eq_some_iff.mp found).1
    have present :
        scanner.handbacks[thread]? = some scanner.handbacks[thread] :=
      List.getElem?_eq_getElem inside
    obtain ⟨_, receiver, empty⟩ :=
      owner.sound.sending thread _ listener present found (by rw [phase]; rfl)
    have placed := holdings_place found .returning
    have given :
        ((scanner.handBack thread kept).holdings : Multiset S) +
            scanner.handbacks[thread].message.toList =
          ((scanner.place thread .returning).holdings : Multiset S) + _ :=
      holdings_modify
        (show (scanner.place thread .returning).handbacks[thread]? = _
          from present) _
    rw [phase] at placed
    rw [empty, if_pos receiver] at given
    have exchanged :
        ((scanner.handBack thread kept).holdings : Multiset S) =
          scanner.holdings := by
      have cancelled :
          ((scanner.place thread .returning).holdings : Multiset S) + [kept] =
            (scanner.holdings : Multiset S) := by
        simpa [Phase.held] using placed
      rw [← cancelled]
      simpa using given
    rw [owner.owned] at exchanged
    exact Multiset.coe_eq_singleton.mp exchanged

theorem Owner.exit
    (owner : scanner.Owner store)
    (found : scanner.threads[thread]? = some listener)
    (phase : listener.phase = .returning) :
    Owner
      { scanner.place thread .finished with
        handbacks :=
          scanner.handbacks.modify thread fun handback =>
            { handback with sender := false } }
      store where
  sound := owner.sound.exit found phase
  owned := by
    have placed :
        (scanner.place thread .finished).holdings = [store] :=
      holdings_place_of_same found (by rw [phase]; rfl) owner.owned
    have channels :=
      filterMap_modify_of_same Handback.message
        (fun handback : Handback S => { handback with sender := false })
        (fun _ => rfl) scanner.handbacks thread
    rw [holdings] at placed ⊢
    rw [channels]
    exact placed

theorem Owner.spawn
    (owner : scanner.Owner store)
    (server : Server) :
    (scanner.spawnListener server).Owner store where
  sound := owner.sound.spawn server
  owned := by
    have owned := owner.owned
    rw [holdings] at owned ⊢
    simp only [spawnListener, owner.sound.keptHandbacks, List.filterMap_append,
      List.filterMap_cons_none, List.filterMap_nil, Option.toList_none,
      List.nil_append, List.append_nil]
    rcases owner.sound.source_cases with
      ⟨kept, direct, none, source⟩ | ⟨earlier, direct, _, source⟩
    · rw [direct, List.length_eq_zero_iff.mp none] at owned
      rw [source, List.length_eq_zero_iff.mp none]
      exact owned
    · rw [direct] at owned
      rw [source]
      exact (List.append_assoc _ [] _).symm ▸ owned

theorem Owner.updated
    (owner : scanner.Owner store)
    (update : S → U → S)
    (found : scanner.threads[thread]? = some listener)
    (phase : listener.phase = .listening kept)
    (change : U) :
    (scanner.place thread (.listening (update kept change))).Owner
      (update store change) where
  sound := owner.sound.place found (by rw [phase]; rfl) rfl nofun
  owned := by
    have same : kept = store :=
      held_of_owned owner.owned found (by rw [phase]; rfl)
    have placed := holdings_place found (.listening (update kept change))
    rw [phase, owner.owned, same] at placed
    rw [same]
    have exchanged :
        ((scanner.place thread (.listening (update store change))).holdings :
            Multiset S) = [update store change] := by
      rw [add_comm (([store] : List S) : Multiset S)] at placed
      exact add_right_cancel placed
    exact Multiset.coe_eq_singleton.mp exchanged

theorem Owner.proceed
    (owner : scanner.Owner store)
    (stepped : scanner.proceed scanner.caller = some next) :
    next.Owner store := by
  cases caller : scanner.caller with
  | idle last =>
      rw [caller] at stepped
      cases stepped
  | testing call =>
      rw [caller, ElectrumScanner.proceed] at stepped
      split at stepped
      all_goals
        cases stepped
        exact owner.of_same rfl rfl rfl rfl
  | raising call reclaiming =>
      rw [caller] at stepped
      cases stepped
      exact owner.of_same rfl rfl rfl (raiseStop_phases _ _)
  | lowering call reclaiming =>
      rw [caller] at stepped
      cases stepped
      exact owner.of_same rfl rfl rfl rfl
  | spawning call =>
      rw [caller, ElectrumScanner.proceed] at stepped
      cases server : scanner.server with
      | none =>
          rw [server] at stepped
          cases stepped
          exact owner.of_same rfl rfl rfl rfl
      | some server' =>
          simp only [server] at stepped
          split at stepped
          case isTrue =>
            cases stepped
            exact owner.of_same rfl rfl rfl rfl
          case isFalse =>
            cases stepped
            exact (owner.spawn server').of_same rfl rfl rfl rfl

theorem Owner.advance
    (owner : scanner.Owner store)
    (found : scanner.threads[thread]? = some listener)
    (stepped : scanner.advance reopenStatuses thread listener = some next) :
    next.Owner store := by
  rw [ElectrumScanner.advance] at stepped
  cases phase : listener.phase with
  | resolving source =>
      cases source with
      | direct kept =>
          rw [phase] at stepped
          cases stepped
          exact owner.place found (by rw [phase]; rfl) rfl
      | handback channel =>
          obtain ⟨earlier, handback, rfl, rfl, present, comes⟩ :=
            owner.sound.awaited found phase
          simp only [phase, ElectrumScanner.receive, present] at stepped
          cases message : handback.message with
          | none =>
              -- The one before has not handed back: the wait goes on.
              rw [message] at comes stepped
              rcases comes with impossible | sender
              · cases impossible
              · rw [sender] at stepped
                cases stepped
          | some sent =>
              rw [message] at stepped
              cases stepped
              exact owner.receive found phase present message
  | checkingStop kept =>
      rw [phase] at stepped
      cases stepped
      apply owner.place found (by rw [phase]; rfl)
      split <;> rfl
  | connecting kept =>
      rw [phase] at stepped
      cases stepped
  | checkingStopAgain kept =>
      rw [phase] at stepped
      cases stepped
      apply owner.place found (by rw [phase]; rfl)
      split <;> rfl
  | markingOnline kept =>
      rw [phase] at stepped
      cases stepped
      have placed : (scanner.place thread (.listening kept)).Owner store :=
        owner.place found (by rw [phase]; rfl) rfl
      exact placed.of_same rfl rfl rfl rfl
  | listening kept =>
      rw [phase] at stepped
      cases stepped
  | clearingOnline kept =>
      rw [phase] at stepped
      cases stepped
      have placed : (scanner.place thread (.handingBack kept)).Owner store :=
        owner.place found (by rw [phase]; rfl) rfl
      exact placed.of_same rfl rfl rfl rfl
  | handingBack kept =>
      rw [phase] at stepped
      cases stepped
      exact owner.handBack found phase
  | returning =>
      rw [phase] at stepped
      cases stepped
      exact owner.exit found phase
  | finished =>
      rw [phase] at stepped
      cases stepped

/-- Every step keeps the owner single, with the step's update in its store. -/
theorem Owner.step
    (owner : scanner.Owner store)
    {event : ScannerEvent Server U}
    (stepped : scanner.step update reopenStatuses event = some next) :
    next.Owner (stored update store event) := by
  cases event with
  | setElectrum server | call call =>
      rw [ElectrumScanner.step] at stepped
      split at stepped <;> cases stepped
      exact owner.of_same rfl rfl rfl rfl
  | proceed =>
      exact owner.proceed stepped
  | advance thread =>
      obtain ⟨listener, found, advanced⟩ := Option.bind_eq_some_iff.mp stepped
      exact owner.advance found advanced
  | connected thread ok =>
      rw [ElectrumScanner.step] at stepped
      split at stepped <;> cases stepped
      rename_i kept was
      obtain ⟨listener, found, phase⟩ := Option.map_eq_some_iff.mp was
      apply owner.place found (by rw [phase]; rfl)
      split <;> rfl
  | updated thread change =>
      rw [ElectrumScanner.step] at stepped
      split at stepped <;> cases stepped
      rename_i kept was
      obtain ⟨listener, found, phase⟩ := Option.map_eq_some_iff.mp was
      exact owner.updated update found phase change
  | ended thread =>
      rw [ElectrumScanner.step] at stepped
      split at stepped <;> cases stepped
      rename_i kept was
      obtain ⟨listener, found, phase⟩ := Option.map_eq_some_iff.mp was
      exact owner.place found (by rw [phase]; rfl) rfl

theorem new_owner (server : Option Server) (store : S) :
    (new server store).Owner store where
  sound := new_sound server store
  owned := rfl

theorem run_owner
    {allowed : ElectrumScanner Server S → ScannerEvent Server U → Prop}
    {server : Option Server}
    {initial : S}
    {events : List (ScannerEvent Server U)}
    (ran :
      Run (step update reopenStatuses) allowed (new server initial) events
        scanner) :
    scanner.Owner (latest update initial events) := by
  refine
    ran.tracks
      (fun events scanner => scanner.Owner (latest update initial events))
      (new_owner server initial) ?_
  intro events scanner next event owner _ stepped
  have kept := owner.step stepped
  rw [latest, List.foldl_append]
  exact kept

end ElectrumScanner

end Bwk.ScanThread
