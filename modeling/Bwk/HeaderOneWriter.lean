import Bwk.HeaderRestartSound

namespace Bwk.HeaderRestart

namespace HeaderStore

/-!
# At most one live writer

In every run that leaves the connections of the current token alone, at most one
live header thread may write, and once all calls have returned the store is
stopped or connected as a whole.
-/

variable {store next : HeaderStore}

/-- What every allowed step keeps. -/
structure Sound (store : HeaderStore) : Prop where
  tokens : store.Tokens
  origins : store.Origins
  headed : store.stopped = false → store.Headed

theorem openedIdle_sound : openedIdle.Sound where
  tokens :=
    { bounded := nofun
      unique := nofun
      fresh := nofun
      oneUnread := by simp [openedIdle] }
  origins :=
    { apart := List.nodup_nil
      threads := nofun
      asked := nofun
      installed := nofun
      spared := nofun }
  headed _ := .untouched nofun

theorem openedConnected_holds
    {token : Nat}
    {origin : Option Nat}
    (holds : openedConnected.Holds token origin) :
    token = 0 ∧ origin = none := by
  cases holds with
  | call found read => simp [openedConnected, openedIdle] at found
  | thread member same =>
      rw [List.mem_singleton.mp member] at same ⊢
      exact ⟨same.symm, rfl⟩
  | headerReq installed same | merkleReq installed same =>
      cases installed
      exact ⟨same.symm, rfl⟩

theorem openedConnected_sound : openedConnected.Sound where
  tokens :=
    { bounded := fun holds => (openedConnected_holds holds).1.le
      unique := fun first second =>
        (openedConnected_holds first).2.trans
          (openedConnected_holds second).2.symm
      fresh := nofun
      oneUnread := by simp [openedConnected, openedIdle] }
  origins :=
    { apart := List.nodup_singleton _
      threads := by
        intro thread member index same
        rw [List.mem_singleton.mp member] at same
        cases same
      asked := nofun
      installed := by
        rintro sender ⟨⟩ index ⟨⟩
      spared := nofun }
  headed _ := .untouched nofun

theorem Sound.called
    (sound : store.Sound)
    (restarts : Bool) :
    Sound
      { store with calls := store.calls ++ [⟨restarts, .settingStopped⟩] } := by
  have kept {index : Nat} {call : Call}
      (found : store.calls[index]? = some call) :
      (store.calls ++ [⟨restarts, .settingStopped⟩])[index]? = some call :=
    (List.getElem?_append_left
      (List.getElem?_eq_some_iff.mp found).1).trans found
  have past {early : CallPhase → Bool} {index : Nat}
      (past : store.Past early index) :
      Past early
        { store with calls := store.calls ++ [⟨restarts, .settingStopped⟩] }
        index := by
    obtain ⟨call, found, isPast⟩ := past
    exact ⟨call, kept found, isPast⟩
  have splits {index : Nat} {call : Call}
      (found :
        (store.calls ++ [⟨restarts, .settingStopped⟩])[index]? = some call) :
      store.calls[index]? = some call ∨ call = ⟨restarts, .settingStopped⟩ := by
    rcases List.mem_append.mp (List.mem_of_getElem? found) with _ | new
    · by_cases inside : index < store.calls.length
      · rw [List.getElem?_append_left inside] at found
        exact .inl found
      · rw [List.getElem?_append_right (Nat.le_of_not_lt inside)] at found
        exact .inr (List.mem_singleton.mp (List.mem_of_getElem? found))
    · exact .inr (List.mem_singleton.mp new)
  exact
    { tokens := by
        refine sound.tokens.frame rfl (fun holds => ?_) ?_
        · refine
            holds.frame ?_ (fun _ member => .thread member rfl)
              (fun _ installed => .headerReq installed rfl)
              fun _ installed => .merkleReq installed rfl
          intro index call token found read
          rcases splits found with old | rfl
          · exact .call old read
          · cases read
        · intro index call found unread
          rcases splits found with old | rfl
          · exact ⟨call, old, unread⟩
          · cases unread
      origins :=
        { apart := sound.origins.apart
          threads := fun thread member index same =>
            past (sound.origins.threads thread member index same)
          asked := fun index member => past (sound.origins.asked index member)
          installed := fun sender member index same =>
            past (sound.origins.installed sender member index same)
          spared := sound.origins.spared }
      headed := fun running => by
        refine
          (sound.headed running).stays (.of_slots rfl (.inl rfl) (.inl rfl) rfl)
            (fun found _ => kept found) ?_
        intro all call member
        rcases List.mem_append.mp member with old | new
        · exact all call old
        · rw [List.mem_singleton.mp new] }

theorem Sound.frame
    (sound : store.Sound)
    (calls : next.calls = store.calls)
    (stopped : next.stopped = store.stopped)
    (token : next.writerToken = store.writerToken)
    (headerReq : next.headerReq = store.headerReq)
    (asked : next.stoppedClients = store.stoppedClients)
    (origins :
      next.headerThreads.map HeaderThread.origin =
        store.headerThreads.map HeaderThread.origin)
    (threads :
      ∀ thread ∈ next.headerThreads,
        store.Holds thread.token thread.origin)
    (merkleReq :
      ∀ sender ∈ next.merkleReq, store.Holds sender.token sender.origin)
    (leaves : store.stopped = false → store.Leaves next) :
    next.Sound where
  tokens := by
    refine sound.tokens.frame token (fun holds => ?_) ?_
    · refine holds.frame ?_ threads ?_ merkleReq
      · intro index call token found read
        rw [calls] at found
        exact .call found read
      · intro sender installed
        rw [headerReq] at installed
        exact .headerReq installed rfl
    · intro index call found unread
      rw [calls] at found
      exact ⟨call, found, unread⟩
  origins := by
    have past {early : CallPhase → Bool} {index : Nat}
        (past : store.Past early index) :
        next.Past early index := by
      rw [Past, calls]
      exact past
    exact
      { apart := origins ▸ sound.origins.apart
        threads := by
          intro thread member index same
          have known :
              some index ∈ store.headerThreads.map HeaderThread.origin := by
            rw [← origins, ← same]
            exact List.mem_map_of_mem member
          obtain ⟨before, present, same'⟩ := List.mem_map.mp known
          exact past (sound.origins.threads before present index same')
        asked := by
          rw [asked]
          exact fun index member => past (sound.origins.asked index member)
        installed := by
          rw [headerReq]
          exact fun sender member index same =>
            past (sound.origins.installed sender member index same)
        spared := by
          rw [headerReq, asked]
          exact sound.origins.spared }
  headed running := by
    rw [stopped] at running
    refine (sound.headed running).stays (leaves running) ?_ ?_
    · rw [calls]
      exact fun found _ => found
    · rw [calls]
      exact fun all => all

theorem Sound.workerExits
    (sound : store.Sound)
    {thread : Nat}
    (exited : store.workerExits thread = some next) :
    next.Sound := by
  rw [HeaderStore.workerExits] at exited
  split at exited
  case h_1 => cases exited
  case h_2 leaving found =>
    split at exited
    case isFalse => cases exited
    case isTrue may =>
      cases exited
      refine
        sound.frame rfl rfl rfl rfl rfl ?_ ?_
          (fun _ installed => .merkleReq installed rfl) fun running => ?_
      · apply List.ext_getElem?
        intro index
        rw [List.getElem?_map, List.getElem?_map, List.getElem?_modify]
        cases store.headerThreads[index]? with
        | none => rfl
        | some other =>
            by_cases same : thread = index <;> simp [same]
      · intro other member
        obtain ⟨index, at'⟩ := List.mem_iff_getElem?.mp member
        rw [List.getElem?_modify] at at'
        obtain ⟨before, present, changed⟩ := Option.map_eq_some_iff.mp at'
        have holds := Holds.thread (List.mem_of_getElem? present) rfl
        split at changed <;> subst changed <;> exact holds
      · refine
          { token := rfl
            header := fun installed => installed
            merkle := fun installed => installed
            threads := fun {index other} present live token header => ?_ }
        have apart : thread ≠ index := by
          rintro rfl
          cases found.symm.trans present
          rcases may.2 with stale | asked
          · simp [isStale, running, token] at stale
          · exact sound.origins.spared _ header asked
        show (store.headerThreads.modify thread _)[index]? = _
        rw [List.getElem?_modify]
        simp [apart, present]

theorem Sound.forwarderGoes
    (sound : store.Sound)
    (forwarder : Nat)
    (phase : ForwarderPhase) :
    (store.forwarderGoes forwarder phase).Sound :=
  sound.frame rfl rfl rfl rfl rfl rfl (fun _ member => .thread member rfl)
    (fun _ installed => .merkleReq installed rfl)
    fun _ => .of_slots rfl (.inl rfl) (.inl rfl) rfl

theorem Sound.takeMerkleReq
    (sound : store.Sound)
    (spares : store.Spares store.merkleReq) :
    store.takeMerkleReq.Sound :=
  sound.frame rfl rfl rfl rfl rfl rfl (fun _ member => .thread member rfl)
    nofun
    fun running =>
      .of_slots rfl (.inl rfl) (.inr (spares.vacant running)) rfl

theorem Sound.step
    {event : StoreEvent}
    (sound : store.Sound)
    (undisturbed : Undisturbed store event)
    (stepped : HeaderRestart.step store event = some next) :
    next.Sound := by
  cases event with
  | called restarts =>
      cases stepped
      exact sound.called restarts
  | advances call connects =>
      rw [HeaderRestart.step] at stepped
      split at stepped
      case h_1 => cases stepped
      case h_2 found before =>
        have clear := undisturbed found before
        exact
          { tokens := sound.tokens.advance before clear stepped
            origins := sound.origins.advance before stepped
            headed :=
              Headed.advance sound.headed sound.tokens sound.origins before
                clear stepped }
  | workerExits thread =>
      exact sound.workerExits stepped
  | forwarderChecks forwarder =>
      rw [HeaderRestart.step, forwarderChecks] at stepped
      split at stepped
      case h_1 => cases stepped
      case h_2 =>
        split at stepped
        case isFalse => cases stepped
        case isTrue =>
          split at stepped <;> cases stepped <;> exact sound.forwarderGoes _ _
  | forwarderClears forwarder =>
      rw [HeaderRestart.step, forwarderClears] at stepped
      split at stepped
      case h_1 => cases stepped
      case h_2 =>
        split at stepped
        case isFalse => cases stepped
        case isTrue =>
          cases stepped
          exact (sound.takeMerkleReq undisturbed).forwarderGoes _ _

theorem Current.token
    {thread : HeaderThread}
    (current : store.Current thread) :
    store.stopped = false ∧ thread.token = store.writerToken := by
  have fresh := current.2
  rw [isStale, Bool.or_eq_false_iff, bne_eq_false_iff_eq] at fresh
  exact ⟨fresh.1, fresh.2.symm⟩

theorem Sound.oneWriter
    (sound : store.Sound) :
    store.OneWriter := by
  intro first second thread other found found' current current'
  have holds : store.Holds store.writerToken thread.origin :=
    .thread (List.mem_of_getElem? found) current.token.2
  have holds' : store.Holds store.writerToken other.origin :=
    .thread (List.mem_of_getElem? found') current'.token.2
  have same := sound.tokens.unique holds holds'
  have inside := (List.getElem?_eq_some_iff.mp found).1
  refine (List.getElem?_inj ?_ sound.origins.apart).mp ?_
  · rw [List.length_map]
    exact inside
  · rw [List.getElem?_map, List.getElem?_map, found, found']
    exact congrArg some same

theorem Sound.settled
    (sound : store.Sound)
    (called : store.calls ≠ [])
    (returned : store.AllReturned) :
    store.Settled := by
  cases stopped : store.stopped with
  | true =>
      refine .idle stopped fun thread _ _ => ?_
      rw [isStale, stopped, Bool.true_or]
  | false =>
      have none {index : Nat} {call : Call}
          (found : store.calls[index]? = some call) :
          ∃ ok, call.phase = .returned ok :=
        returned call (List.mem_of_getElem? found)
      cases sound.headed stopped with
      | untouched all =>
          obtain ⟨call, member⟩ := List.exists_mem_of_ne_nil _ called
          obtain ⟨ok, done⟩ := returned call member
          rw [all call member] at done
          cases done
      | bumping found bumps =>
          obtain ⟨ok, done⟩ := none found
          rw [bumps] at done
          cases done
      | unread found reads =>
          obtain ⟨ok, done⟩ := none found
          rw [done] at reads
          cases reads
      | installing found read _ _ =>
          obtain ⟨ok, done⟩ := none found
          rw [done] at read
          cases read
      | @working index thread found live token header merkle =>
          have current : store.Current thread := by
            refine ⟨live, ?_⟩
            rw [isStale, stopped, token]
            simp
          exact
            .connected stopped found current
              (fun second other found' current' =>
                sound.oneWriter second index other thread found' found
                  current' current)
              header rfl merkle rfl

end HeaderStore

def Opened (store : HeaderStore) : Prop :=
  store = openedIdle ∨ store = openedConnected

/-- In every run that leaves the connections of the current token alone, a
header store has at most one live writer, and is settled once all calls have
returned. -/
theorem one_live_writer
    {start store : HeaderStore}
    {events : List StoreEvent}
    (opened : Opened start)
    (ran : Run step Undisturbed start events store) :
    store.Kept := by
  have sound : store.Sound := by
    refine
      ran.invariant HeaderStore.Sound ?_ fun sound undisturbed stepped =>
        sound.step undisturbed stepped
    rcases opened with rfl | rfl
    · exact HeaderStore.openedIdle_sound
    · exact HeaderStore.openedConnected_sound
  exact ⟨sound.oneWriter, sound.settled⟩

instance (store : HeaderStore) (slot : Option Sender) :
    Decidable (store.Spares slot) :=
  inferInstanceAs (Decidable (_ ∨ _))

instance (store : HeaderStore) (connects : Bool) :
    (phase : CallPhase) → Decidable (store.Clear connects phase)
  | .bumpingToken => inferInstanceAs (Decidable (_ ∧ _))
  | .connecting | .connectingMerkle => inferInstanceAs (Decidable (_ ∨ _))
  | .takingHeaderReq | .settingHeaderReq _ =>
      inferInstanceAs (Decidable (store.Spares store.headerReq))
  | .takingMerkleReq | .settingMerkleReq _ =>
      inferInstanceAs (Decidable (store.Spares store.merkleReq))
  | .settingStopped | .stoppingHeaderWorker | .stoppingMerkleWorker
  | .clearingStopped | .readingToken | .startingMerkleWorker _
  | .startingHeaderWorker _ | .returned _ => .isTrue trivial

instance : DecidableRel Undisturbed
  | store, .advances call connects =>
      inferInstanceAs
        (Decidable
          (∀ found ∈ store.calls[call]?, store.Clear connects found.phase))
  | store, .forwarderClears _ =>
      inferInstanceAs (Decidable (store.Spares store.merkleReq))
  | _, .called _ | _, .workerExits _ | _, .forwarderChecks _ =>
      .isTrue trivial

/-- Seven steps of a call: those of `stop` and two more, or those that follow. -/
def sevenSteps (call : Nat) : List StoreEvent :=
  List.replicate 7 (.advances call true)

/-- Two wallets restart a store at once: both bump the token before either reads
it. -/
def overlapping : List StoreEvent :=
  [.called true, .called true] ++ sevenSteps 0 ++ sevenSteps 1 ++
    sevenSteps 0 ++ sevenSteps 1

theorem overlapping_runs :
    (follow (guarded AnyStep step) openedConnected overlapping).isSome := by
  decide

/-- Two restarts at once leave two live writers. -/
theorem two_live_writers :
    ¬ ∀ (start store : HeaderStore) (events : List StoreEvent),
        Opened start → Run step AnyStep start events store → store.Kept := by
  intro claimed
  have kept :=
    claimed _ _ overlapping (.inr rfl)
      (.of_follow (Option.some_get overlapping_runs).symm)
  have writers :=
    kept.oneWriter 1 2 ⟨some 0, 2, true⟩ ⟨some 1, 2, true⟩ (by decide)
      (by decide) ⟨rfl, by decide⟩ ⟨rfl, by decide⟩
  cases writers

/-- A restart and then a stop, beside the exit of the thread replaced. -/
def inTurn : List StoreEvent :=
  [.called true, .called false] ++ sevenSteps 0 ++ [.workerExits 0] ++
    sevenSteps 0 ++ List.replicate 5 (.advances 1 true)

theorem inTurn_runs :
    (follow (guarded Undisturbed step) openedConnected inTurn).isSome := by
  decide

/-- One wallet restarts the store, another stops it afterwards. -/
theorem one_live_writer_inTurn :
    (Option.get _ inTurn_runs).Kept :=
  one_live_writer (.inr rfl) (.of_follow (Option.some_get inTurn_runs).symm)

end Bwk.HeaderRestart
