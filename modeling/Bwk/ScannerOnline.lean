import Bwk.ScannerOwnership

namespace Bwk.ScanThread

/-!
# When a scanner is online

The flag is set by the listener that has connected and cleared by it before it
hands the store back, and by every stop.  A stop that falls between a
listener's last look at its stop flag and its setting the flag is undone.
-/

variable {Server S U : Type}

namespace ElectrumScanner

/-- A scanner that is online has a listener that set the flag and is yet to
clear it. -/
def Marked (scanner : ElectrumScanner Server S) : Prop :=
  scanner.online = true →
    ∃ (thread : Nat) (listener : ListenerThread Server S),
      scanner.threads[thread]? = some listener ∧
        listener.phase.marked = true

/-- A thread not told to stop has exited, or is the one whose flag the next
stop raises. -/
def Flagged (scanner : ElectrumScanner Server S) : Prop :=
  ∀ (thread : Nat) (listener : ListenerThread Server S),
    scanner.threads[thread]? = some listener →
      listener.stopRequest = false →
        listener.phase.exited = true ∨
          scanner.listener.handle = some thread ∧
            scanner.listener.stopFlag = some thread

/-- Every thread that is alive has been told to stop. -/
def AllStopped (scanner : ElectrumScanner Server S) : Prop :=
  ∀ (thread : Nat) (listener : ListenerThread Server S),
    scanner.threads[thread]? = some listener →
      listener.stopRequest = false → listener.phase.exited = true

/-- No thread is about to set the flag. -/
def NoneMarking (scanner : ElectrumScanner Server S) : Prop :=
  ∀ listener ∈ scanner.threads, listener.phase.marking = false

instance (scanner : ElectrumScanner Server S) :
    Decidable scanner.NoneMarking :=
  inferInstanceAs (Decidable (∀ listener ∈ scanner.threads, _ = _))

/-- The call that is about to spawn a listener. -/
def Caller.starting : Caller → Option ScannerCall
  | .testing call | .raising call true | .lowering call true
  | .spawning call => some call
  | _ => none

/-- What holds of a stop whose flag has been raised, and once it has
returned. -/
structure Stopped (scanner : ElectrumScanner Server S) : Prop where
  starts : Caller.starting scanner.caller ≠ some .stop
  raised :
    ∀ call reclaiming,
      scanner.caller = .lowering call reclaiming → scanner.AllStopped
  returned :
    scanner.caller = .idle (some .stop) →
      scanner.AllStopped ∧ scanner.NoneMarking ∧ scanner.online = false

variable {scanner next : ElectrumScanner Server S}

variable {listener : ListenerThread Server S} {thread : Nat} {phase : Phase S}

theorem Marked.place
    (marked : scanner.Marked)
    (found : scanner.threads[thread]? = some listener)
    (keeps : listener.phase.marked = true → phase.marked = true) :
    (scanner.place thread phase).Marked := by
  intro online
  obtain ⟨other, listener', found', marks⟩ := marked online
  have stands :
      (scanner.place thread phase).threads[other]? =
        some (if thread = other then { listener' with phase := phase }
          else listener') := by
    rw [ElectrumScanner.place, List.getElem?_modify, found']
    rfl
  refine ⟨other, _, stands, ?_⟩
  by_cases same : thread = other
  · subst same
    rw [if_pos rfl]
    rw [found] at found'
    cases found'
    exact keeps marks
  · rw [if_neg same]
    exact marks

/-- Scanners alike in their flag and phases have the flag accounted for
alike. -/
theorem Marked.of_same
    (marked : scanner.Marked)
    (online : next.online = true → scanner.online = true)
    (phases :
      next.threads.map ListenerThread.phase =
        scanner.threads.map ListenerThread.phase) :
    next.Marked := by
  intro isOnline
  obtain ⟨thread, listener, found, marks⟩ := marked (online isOnline)
  have same := congrArg (·[thread]?) phases
  simp only [List.getElem?_map, found, Option.map_some] at same
  obtain ⟨listener', found', phase⟩ := Option.map_eq_some_iff.mp same
  exact ⟨thread, listener', found', by rw [phase]; exact marks⟩

inductive FlagChange
    (before : Bool)
    (listener : ListenerThread Server S)
    (phase : Phase S) :
    Bool → Prop where
  | keeps
      (marked : listener.phase.marked = true → phase.marked = true)
      (looked : phase.marking = true → listener.stopRequest = false) :
      FlagChange before listener phase before
  | sets
      (marking : listener.phase.marking = true)
      (marked : phase.marked = true)
      (moves : phase.marking = false) :
      FlagChange before listener phase true
  | clears
      (moves : phase.marking = false) :
      FlagChange before listener phase false

theorem FlagChange.stays
    {before : Bool}
    (marked : listener.phase.marked = true → phase.marked = true)
    (away : phase.marking = false) :
    FlagChange before listener phase before :=
  .keeps marked (fun marking => by rw [away] at marking; cases marking)

theorem FlagChange.unmarked
    {before : Bool}
    (unmarked : listener.phase.marked = false)
    (away : phase.marking = false) :
    FlagChange before listener phase before :=
  .stays (fun marks => by rw [unmarked] at marks; cases marks) away

structure Moved
    (scanner next : ElectrumScanner Server S)
    (thread : Nat)
    (listener : ListenerThread Server S)
    (phase : Phase S) : Prop where
  found : scanner.threads[thread]? = some listener
  alive : listener.phase.exited = false
  threads : next.threads = (scanner.place thread phase).threads
  caller : next.caller = scanner.caller
  worker : next.listener = scanner.listener
  flag : FlagChange scanner.online listener phase next.online

variable {reopenStatuses : Option S}

theorem receive_moved
    {channel channel' : Option Nat}
    (found : scanner.threads[thread]? = some listener)
    (waits : listener.phase = .resolving (.handback channel'))
    (stepped : scanner.receive reopenStatuses thread channel = some next) :
    ∃ phase, scanner.Moved next thread listener phase := by
  have keeps :
      ∀ phase : Phase S, phase.marking = false →
        FlagChange scanner.online listener phase scanner.online := by
    intro phase moves
    refine .keeps ?_ ?_
    · intro marks
      rw [waits] at marks
      cases marks
    · intro marks
      exact absurd (moves.symm.trans marks) Bool.false_ne_true
  have opened :
      ∀ {from' : ElectrumScanner Server S},
        from'.threads = scanner.threads → from'.caller = scanner.caller →
          from'.listener = scanner.listener →
            from'.online = scanner.online →
              ∃ phase,
                scanner.Moved (from'.unavailable reopenStatuses thread)
                  thread listener phase := by
    intro from' threads caller worker online
    have alive : listener.phase.exited = false := by
      rw [waits]
      rfl
    cases reopenStatuses with
    | none =>
        refine ⟨.returning, found, alive, ?_, caller, worker, ?_⟩
        · simp only [unavailable, ElectrumScanner.place, threads]
        · rw [show (from'.unavailable none thread).online = _ from online]
          exact keeps _ rfl
    | some store =>
        refine ⟨.checkingStop store, found, alive, ?_, caller, worker, ?_⟩
        · simp only [unavailable, ElectrumScanner.place, threads]
        · rw [show (from'.unavailable (some store) thread).online = _ from
            online]
          exact keeps _ rfl
  unfold ElectrumScanner.receive at stepped
  split at stepped
  · cases stepped
    exact opened rfl rfl rfl rfl
  · split at stepped
    · cases stepped
      exact opened rfl rfl rfl rfl
    · split at stepped <;> cases stepped
      · exact ⟨.checkingStop _, found, by rw [waits]; rfl, rfl, rfl, rfl,
          keeps _ rfl⟩
      · exact opened rfl rfl rfl rfl

theorem advance_moved
    (found : scanner.threads[thread]? = some listener)
    (stepped : scanner.advance reopenStatuses thread listener = some next) :
    ∃ phase, scanner.Moved next thread listener phase := by
  rw [ElectrumScanner.advance] at stepped
  cases phase : listener.phase with
  | resolving source =>
      cases source with
      | direct store =>
          rw [phase] at stepped
          cases stepped
          exact
            ⟨.checkingStop store, found, by rw [phase]; rfl, rfl, rfl, rfl,
              .unmarked (by rw [phase]; rfl) rfl⟩
      | handback channel =>
          rw [phase] at stepped
          exact receive_moved found phase stepped
  | checkingStop store =>
      rw [phase] at stepped
      cases stepped
      refine
        ⟨_, found, by rw [phase]; rfl, rfl, rfl, rfl,
          .unmarked (by rw [phase]; rfl) ?_⟩
      split <;> rfl
  | checkingStopAgain store =>
      rw [phase] at stepped
      cases stepped
      refine
        ⟨_, found, by rw [phase]; rfl, rfl, rfl, rfl,
          .keeps (by rw [phase]; rintro ⟨⟩) ?_⟩
      cases listener.stopRequest
      · intro _
        rfl
      · rintro ⟨⟩
  | markingOnline store =>
      rw [phase] at stepped
      cases stepped
      exact
        ⟨.listening store, found, by rw [phase]; rfl, rfl, rfl, rfl,
          .sets (by rw [phase]; rfl) rfl rfl⟩
  | clearingOnline store =>
      rw [phase] at stepped
      cases stepped
      exact
        ⟨.handingBack store, found, by rw [phase]; rfl, rfl, rfl, rfl,
          .clears rfl⟩
  | handingBack store =>
      rw [phase] at stepped
      cases stepped
      exact
        ⟨.returning, found, by rw [phase]; rfl, rfl, rfl, rfl,
          .unmarked (by rw [phase]; rfl) rfl⟩
  | returning =>
      rw [phase] at stepped
      cases stepped
      exact
        ⟨.finished, found, by rw [phase]; rfl, rfl, rfl, rfl,
          .unmarked (by rw [phase]; rfl) rfl⟩
  | connecting store | listening store | finished =>
      rw [phase] at stepped
      cases stepped

/-- What a step does: the caller is between calls, it takes its next step, or
a thread moves on. -/
theorem step_cases
    {update : S → U → S}
    {event : ScannerEvent Server U}
    (stepped : scanner.step update reopenStatuses event = some next) :
    (∃ server, next = { scanner with server := server }) ∨
      (∃ last, ∃ call : ScannerCall, scanner.caller = .idle last ∧
        next = { scanner with caller := call.first }) ∨
      (event = .proceed ∧ scanner.proceed scanner.caller = some next) ∨
      ∃ thread listener phase, scanner.Moved next thread listener phase := by
  cases event with
  | setElectrum server =>
      rw [ElectrumScanner.step] at stepped
      split at stepped <;> cases stepped
      exact .inl ⟨server, rfl⟩
  | call call =>
      rw [ElectrumScanner.step] at stepped
      split at stepped <;> cases stepped
      rename_i last caller
      exact .inr (.inl ⟨last, call, caller, rfl⟩)
  | proceed =>
      exact .inr (.inr (.inl ⟨rfl, stepped⟩))
  | advance thread =>
      obtain ⟨listener, found, advanced⟩ := Option.bind_eq_some_iff.mp stepped
      obtain ⟨phase, moved⟩ := advance_moved found advanced
      exact .inr (.inr (.inr ⟨thread, listener, phase, moved⟩))
  | connected thread ok =>
      rw [ElectrumScanner.step] at stepped
      split at stepped <;> cases stepped
      rename_i store was
      obtain ⟨listener, found, phase⟩ := Option.map_eq_some_iff.mp was
      refine
        .inr (.inr (.inr ⟨thread, listener, _, found, by rw [phase]; rfl, rfl,
          rfl, rfl, .unmarked (by rw [phase]; rfl) ?_⟩))
      cases ok <;> rfl
  | updated thread change | ended thread =>
      rw [ElectrumScanner.step] at stepped
      split at stepped <;> cases stepped
      rename_i store was
      obtain ⟨listener, found, phase⟩ := Option.map_eq_some_iff.mp was
      exact
        .inr (.inr (.inr ⟨thread, listener, _, found, by rw [phase]; rfl, rfl,
          rfl, rfl, .stays (fun _ => rfl) rfl⟩))

section Moved

variable {thread : Nat} {listener : ListenerThread Server S} {phase : Phase S}

theorem Moved.found_next
    (moved : scanner.Moved next thread listener phase)
    {other : Nat}
    {listener' : ListenerThread Server S}
    (found : next.threads[other]? = some listener') :
    (other = thread ∧ listener' = { listener with phase := phase }) ∨
      other ≠ thread ∧ scanner.threads[other]? = some listener' := by
  rw [moved.threads] at found
  rcases found_of_modify found with ⟨rfl, before, was, rfl⟩ | other
  · rw [moved.found] at was
    cases was
    exact .inl ⟨rfl, rfl⟩
  · exact .inr other

theorem Moved.marked
    (moved : scanner.Moved next thread listener phase)
    (marked : scanner.Marked) :
    next.Marked := by
  have sets :
      phase.marked = true → next.Marked := by
    intro marks _
    refine ⟨thread, { listener with phase := phase }, ?_, marks⟩
    rw [moved.threads, ElectrumScanner.place, List.getElem?_modify, moved.found]
    simp
  have flag := moved.flag
  generalize online : next.online = isOnline at flag
  cases flag with
  | keeps keeps _ =>
      have placed := marked.place moved.found keeps
      refine placed.of_same (fun on => ?_) (by rw [moved.threads])
      rw [online] at on
      exact on
  | sets _ marks _ =>
      exact sets marks
  | clears =>
      intro on
      rw [online] at on
      cases on

theorem Moved.flagged
    (moved : scanner.Moved next thread listener phase)
    (flagged : scanner.Flagged) :
    next.Flagged := by
  intro other listener' found free
  rw [moved.worker]
  rcases moved.found_next found with ⟨rfl, rfl⟩ | ⟨_, before⟩
  · rcases flagged other listener moved.found free with exited | current
    · exact absurd (moved.alive.symm.trans exited) Bool.false_ne_true
    · exact .inr current
  · exact flagged other listener' before free

theorem Moved.allStopped
    (moved : scanner.Moved next thread listener phase)
    (stopped : scanner.AllStopped) :
    next.AllStopped := by
  intro other listener' found free
  rcases moved.found_next found with ⟨rfl, rfl⟩ | ⟨_, before⟩
  · have exited := stopped other listener moved.found free
    exact absurd (moved.alive.symm.trans exited) Bool.false_ne_true
  · exact stopped other listener' before free

/-- A thread told to stop does not set the flag, unless it was about to. -/
theorem Moved.noneMarking
    (moved : scanner.Moved next thread listener phase)
    (stopped : scanner.AllStopped)
    (noneMarking : scanner.NoneMarking)
    (offline : scanner.online = false) :
    next.NoneMarking ∧ next.online = false := by
  have moves :
      phase.marking = false ∧ next.online = false := by
    have flag := moved.flag
    generalize next.online = isOnline at flag
    cases flag with
    | keeps _ looked =>
        refine ⟨?_, offline⟩
        by_contra marks
        have free := looked (Bool.eq_true_of_not_eq_false marks)
        have exited := stopped thread listener moved.found free
        exact absurd (moved.alive.symm.trans exited) Bool.false_ne_true
    | sets marking =>
        have none := noneMarking listener (List.mem_of_getElem? moved.found)
        exact absurd (none.symm.trans marking) Bool.false_ne_true
    | clears moves =>
        exact ⟨moves, rfl⟩
  refine ⟨?_, moves.2⟩
  intro listener' present
  obtain ⟨other, found⟩ := List.mem_iff_getElem?.mp present
  rcases moved.found_next found with ⟨rfl, rfl⟩ | ⟨_, before⟩
  · exact moves.1
  · exact noneMarking listener' (List.mem_of_getElem? before)

end Moved

theorem found_raised
    {threads : List (ListenerThread Server S)}
    {flag : Option Nat}
    (found : (raiseStop threads flag)[thread]? = some listener) :
    ∃ before, threads[thread]? = some before ∧
      listener.phase = before.phase ∧
      (listener.stopRequest = false →
        before.stopRequest = false ∧ flag ≠ some thread) := by
  cases flag with
  | none =>
      exact ⟨listener, found, rfl, fun free => ⟨free, nofun⟩⟩
  | some flagged =>
      rcases found_of_modify found with ⟨rfl, before, was, rfl⟩ | ⟨other, was⟩
      · exact ⟨before, was, rfl, nofun⟩
      · refine ⟨listener, was, rfl, fun free => ⟨free, ?_⟩⟩
        rintro ⟨⟩
        exact other rfl

/-- A stop whose flag has been raised has told every thread that is alive. -/
theorem Flagged.raised
    (flagged : scanner.Flagged)
    (found :
      (raiseStop scanner.threads scanner.listener.stopFlag)[thread]? =
        some listener)
    (free : listener.stopRequest = false) :
    listener.phase.exited = true := by
  obtain ⟨before, was, phase, unflagged⟩ := found_raised found
  obtain ⟨freeBefore, other⟩ := unflagged free
  rw [phase]
  rcases flagged thread before was freeBefore with exited | ⟨_, flag⟩
  · exact exited
  · exact absurd flag other

theorem exited_of_not_running
    (found : scanner.threads[thread]? = some listener)
    (handle : scanner.listener.handle = some thread)
    (idle : ¬ scanner.listener.running scanner.isFinished = true) :
    listener.phase.exited = true := by
  rw [Worker.running, handle] at idle
  simpa [ElectrumScanner.isFinished, found] using idle

theorem Flagged.spawn
    (flagged : scanner.Flagged)
    (idle : ¬ scanner.listener.running scanner.isFinished = true)
    (server : Server) :
    (scanner.spawnListener server).Flagged := by
  intro thread listener found free
  rcases found_of_append found with ⟨old, _⟩ | ⟨rfl, rfl⟩
  · rcases flagged thread listener old free with exited | ⟨handle, _⟩
    · exact .inl exited
    · exact .inl (exited_of_not_running old handle idle)
  · exact .inr ⟨rfl, rfl⟩

theorem Marked.spawn
    (marked : scanner.Marked)
    (server : Server) :
    (scanner.spawnListener server).Marked := by
  intro online
  obtain ⟨thread, listener, found, marks⟩ := marked online
  have inside := (List.getElem?_eq_some_iff.mp found).1
  refine ⟨thread, listener, ?_, marks⟩
  rw [spawnListener, List.getElem?_append_left inside]
  exact found

/-- A stop marks the scan offline when no listener is about to mark it online.
-/
def SeesStops
    (scanner : ElectrumScanner Server S) :
    ScannerEvent Server U → Prop
  | .proceed =>
      scanner.caller = .lowering .stop false → scanner.NoneMarking
  | _ => True

instance :
    DecidableRel
      (SeesStops : ElectrumScanner Server S → ScannerEvent Server U → Prop)
  | _, .proceed => inferInstanceAs (Decidable (_ → _))
  | _, .setElectrum _ | _, .call _ | _, .advance _ | _, .connected _ _
  | _, .updated _ _ | _, .ended _ => .isTrue trivial

section Steps

variable {update : S → U → S} {reopenStatuses : Option S}
variable {event : ScannerEvent Server U}

theorem Marked.step
    (marked : scanner.Marked)
    (stepped : scanner.step update reopenStatuses event = some next) :
    next.Marked := by
  rcases step_cases stepped with
    ⟨server, rfl⟩ | ⟨last, call, _, rfl⟩ | ⟨_, proceeded⟩ |
      ⟨thread, listener, phase, moved⟩
  · exact marked
  · exact marked
  · cases caller : scanner.caller with
    | idle last =>
        rw [caller] at proceeded
        cases proceeded
    | testing call =>
        rw [caller, ElectrumScanner.proceed] at proceeded
        split at proceeded <;> cases proceeded <;> exact marked
    | raising call reclaiming =>
        rw [caller] at proceeded
        cases proceeded
        exact marked.of_same id (raiseStop_phases _ _)
    | lowering call reclaiming =>
        rw [caller] at proceeded
        cases proceeded
        intro impossible
        cases impossible
    | spawning call =>
        rw [caller, ElectrumScanner.proceed] at proceeded
        split at proceeded
        case h_1 =>
          cases proceeded
          exact marked
        case h_2 server _ =>
          split at proceeded <;> cases proceeded
          · exact marked
          · exact (marked.spawn server).of_same id rfl
  · exact moved.marked marked

theorem Flagged.step
    (flagged : scanner.Flagged)
    (stepped : scanner.step update reopenStatuses event = some next) :
    next.Flagged := by
  rcases step_cases stepped with
    ⟨server, rfl⟩ | ⟨last, call, _, rfl⟩ | ⟨_, proceeded⟩ |
      ⟨thread, listener, phase, moved⟩
  · exact flagged
  · exact flagged
  · cases caller : scanner.caller with
    | idle last =>
        rw [caller] at proceeded
        cases proceeded
    | testing call =>
        rw [caller, ElectrumScanner.proceed] at proceeded
        split at proceeded <;> cases proceeded <;> exact flagged
    | raising call reclaiming =>
        rw [caller] at proceeded
        cases proceeded
        intro thread listener found free
        exact .inl (flagged.raised found free)
    | lowering call reclaiming =>
        rw [caller] at proceeded
        cases proceeded
        exact flagged
    | spawning call =>
        rw [caller, ElectrumScanner.proceed] at proceeded
        split at proceeded
        case h_1 =>
          cases proceeded
          exact flagged
        case h_2 server _ =>
          split at proceeded <;> cases proceeded
          case isTrue =>
            exact flagged
          case isFalse idle =>
            exact flagged.spawn idle server
  · exact moved.flagged flagged

/-- A caller that neither lowers a flag nor has returned from a stop. -/
theorem Stopped.of_elsewhere
    (starts : Caller.starting scanner.caller ≠ some .stop)
    (lowering :
      ∀ call reclaiming, scanner.caller ≠ .lowering call reclaiming)
    (returned : scanner.caller ≠ .idle (some .stop)) :
    scanner.Stopped :=
  ⟨starts, fun call reclaiming same => absurd same (lowering call reclaiming),
    fun same => absurd same returned⟩

theorem Stopped.step
    (stopped : scanner.Stopped)
    (flagged : scanner.Flagged)
    (sees : scanner.SeesStops event)
    (stepped : scanner.step update reopenStatuses event = some next) :
    next.Stopped := by
  rcases step_cases stepped with
    ⟨server, rfl⟩ | ⟨last, call, _, rfl⟩ | ⟨rfl, proceeded⟩ |
      ⟨thread, listener, phase, moved⟩
  · exact ⟨stopped.starts, stopped.raised, stopped.returned⟩
  · cases call <;>
      exact .of_elsewhere (by rintro ⟨⟩) (by rintro _ _ ⟨⟩) (by rintro ⟨⟩)
  · have starts := stopped.starts
    cases caller : scanner.caller with
    | idle last =>
        rw [caller] at proceeded
        cases proceeded
    | testing call =>
        rw [caller] at starts
        rw [caller, ElectrumScanner.proceed] at proceeded
        split at proceeded <;> cases proceeded <;>
          exact .of_elsewhere starts (by rintro _ _ ⟨⟩) (by rintro ⟨⟩)
    | raising call reclaiming =>
        rw [caller] at starts proceeded
        cases proceeded
        refine ⟨?_, ?_, by rintro ⟨⟩⟩
        · cases reclaiming
          · rintro ⟨⟩
          · exact starts
        · intro _ _ _ thread listener found free
          exact flagged.raised found free
    | lowering call reclaiming =>
        have all := stopped.raised call reclaiming caller
        rw [caller] at starts proceeded
        cases proceeded
        cases reclaiming with
        | true =>
            exact .of_elsewhere starts (by rintro _ _ ⟨⟩) (by rintro ⟨⟩)
        | false =>
            cases call with
            | stop =>
                exact
                  ⟨by rintro ⟨⟩, by rintro _ _ ⟨⟩,
                    fun _ => ⟨all, sees caller, rfl⟩⟩
            | start | restart =>
                exact
                  .of_elsewhere (by rintro ⟨⟩) (by rintro _ _ ⟨⟩)
                    (by rintro ⟨⟩)
    | spawning call =>
        -- Only a call that is no stop spawns a listener.
        have other : Caller.idle (some call) ≠ .idle (some .stop) := by
          rintro ⟨⟩
          rw [caller] at starts
          exact starts rfl
        rw [caller, ElectrumScanner.proceed] at proceeded
        split at proceeded
        case h_1 =>
          cases proceeded
          exact .of_elsewhere (by rintro ⟨⟩) (by rintro _ _ ⟨⟩) other
        case h_2 =>
          split at proceeded <;> cases proceeded <;>
            exact .of_elsewhere (by rintro ⟨⟩) (by rintro _ _ ⟨⟩) other
  · refine ⟨?_, ?_, ?_⟩
    · rw [moved.caller]
      exact stopped.starts
    · intro call reclaiming caller
      rw [moved.caller] at caller
      exact moved.allStopped (stopped.raised call reclaiming caller)
    · intro caller
      rw [moved.caller] at caller
      obtain ⟨all, noneMarking, offline⟩ := stopped.returned caller
      exact
        ⟨moved.allStopped all, moved.noneMarking all noneMarking offline⟩

end Steps

/-- No listener is between connecting and handing the store back. -/
def NoneConnected (scanner : ElectrumScanner Server S) : Prop :=
  ∀ listener ∈ scanner.threads, listener.phase.connected = false

def OneTalks (scanner : ElectrumScanner Server S) : Prop :=
  scanner.threads.countP (fun listener => listener.phase.talking) ≤ 1

/-- What the statuses store is promised at every moment. -/
structure SingleOwner
    (scanner : ElectrumScanner Server S)
    (store : S) : Prop where
  owned : scanner.holdings = [store]
  oneTalks : scanner.OneTalks
  /-- Whoever has the store has it with every update. -/
  kept :
    ∀ listener ∈ scanner.threads, ∀ kept,
      listener.phase.held = some kept → kept = store
  /-- The store a listener waits for is handed back, or will be. -/
  awaited :
    ∀ listener ∈ scanner.threads, ∀ channel,
      listener.phase = .resolving (.handback channel) →
        ∃ earlier handback,
          channel = some earlier ∧
            scanner.handbacks[earlier]? = some handback ∧
            (handback.message.isSome = true ∨ handback.sender = true)
  quiet : scanner.NoneConnected → scanner.online = false

theorem talking_held
    (talks : phase.talking = true) :
    phase.held.isSome = true := by
  cases phase with
  | resolving source => cases talks
  | connecting | checkingStopAgain | markingOnline | listening => rfl
  | checkingStop | clearingOnline | handingBack | returning | finished =>
      cases talks

/-- A thread that has set the flag is between connecting and handing the store
back. -/
theorem marked_connected
    (marks : phase.marked = true) :
    phase.connected = true := by
  cases phase with
  | resolving source => cases marks
  | listening | clearingOnline => rfl
  | checkingStop | connecting | checkingStopAgain | markingOnline
  | handingBack | returning | finished => cases marks

theorem oneTalks_of_owned
    {store : S}
    (owned : scanner.holdings = [store]) :
    scanner.OneTalks := by
  have talks :
      scanner.threads.countP (fun listener => listener.phase.talking) ≤
        (scanner.threads.filterMap held).length := by
    rw [List.length_filterMap_eq_countP]
    exact List.countP_mono_left fun listener _ talks => talking_held talks
  have total := congrArg List.length owned
  rw [holdings, List.length_append, List.length_append,
    List.length_singleton] at total
  rw [OneTalks]
  omega

/-- What one place holding the store, and the flag being accounted for, say. -/
theorem Owner.singleOwner
    {store : S}
    (owner : scanner.Owner store)
    (marked : scanner.Marked) :
    scanner.SingleOwner store where
  owned := owner.owned
  oneTalks := oneTalks_of_owned owner.owned
  kept listener present _ holds := by
    obtain ⟨thread, found⟩ := List.mem_iff_getElem?.mp present
    exact held_of_owned owner.owned found holds
  awaited listener present channel waits := by
    obtain ⟨thread, found⟩ := List.mem_iff_getElem?.mp present
    obtain ⟨earlier, handback, same, _, there, comes⟩ :=
      owner.sound.awaited found waits
    exact ⟨earlier, handback, same, there, comes⟩
  quiet none := by
    by_contra online
    obtain ⟨thread, listener, found, marks⟩ :=
      marked (Bool.eq_true_of_not_eq_false online)
    have between := none listener (List.mem_of_getElem? found)
    rw [marked_connected marks] at between
    cases between

/--
After every run one place holds the statuses store with every update; and in a
run whose stops all fall outside the gap between a listener's last look at its
flag and its marking the scan online, the scan is offline once a stop has
returned and until the next call.
-/
theorem statuses_single_owner
    (update : S → U → S)
    (reopenStatuses : Option S)
    (server : Option Server)
    (initial : S)
    (events : List (ScannerEvent Server U))
    (scanner : ElectrumScanner Server S) :
    (Run (step update reopenStatuses) AnyStep (new server initial) events
        scanner →
      scanner.SingleOwner (latest update initial events)) ∧
    (Run (step update reopenStatuses) SeesStops (new server initial) events
        scanner →
      scanner.caller = .idle (some .stop) → scanner.online = false) := by
  refine ⟨?_, ?_⟩
  · intro ran
    have marked : scanner.Marked :=
      ran.invariant Marked nofun fun marked _ stepped => marked.step stepped
    exact (run_owner ran).singleOwner marked
  · intro ran
    have initially :
        (new server initial).Flagged ∧ (new server initial).Stopped :=
      ⟨fun _ _ found => (by cases found), nofun, nofun, nofun⟩
    have kept : scanner.Flagged ∧ scanner.Stopped := by
      refine
        ran.invariant (fun scanner => scanner.Flagged ∧ scanner.Stopped)
          initially ?_
      rintro before next event ⟨flagged, stopped⟩ sees stepped
      exact ⟨flagged.step stepped, stopped.step flagged sees stepped⟩
    intro returned
    exact (kept.2.returned returned).2.2

/-- A listener that connects, updates the store twice, is stopped and hands it
to the next. -/
def handedOver : List (ScannerEvent Nat Nat) :=
  [.call .start, .proceed, .proceed,
    .advance 0, .advance 0, .connected 0 true, .advance 0, .advance 0,
    .updated 0 7, .updated 0 8,
    .call .restart, .proceed, .proceed, .proceed, .proceed,
    .ended 0, .advance 0, .advance 0, .advance 1,
    .call .stop, .proceed, .proceed]

/-- A stop between a listener's last look at its flag and its marking the scan
online. -/
def stoppedInBetween : List (ScannerEvent Nat Nat) :=
  [.call .start, .proceed, .proceed,
    .advance 0, .advance 0, .connected 0 true, .advance 0,
    .call .stop, .proceed, .proceed, .advance 0]

/-- After a handover the second listener has both updates, and a stop leaves
the scan offline. -/
theorem handed_over_single_owner :
    ∃ scanner : ElectrumScanner Nat (List Nat),
      Run (step (fun log change => change :: log) none) SeesStops
          (new (some 50001) []) handedOver scanner ∧
        scanner.SingleOwner [8, 7] ∧
        scanner.caller = .idle (some .stop) ∧ scanner.online = false := by
  have followed :
      ∃ scanner : ElectrumScanner Nat (List Nat),
        follow (guarded SeesStops (step (fun log change => change :: log) none))
            (new (some 50001) []) handedOver = some scanner ∧
          scanner.caller = .idle (some .stop) :=
    ⟨_, rfl, rfl⟩
  obtain ⟨scanner, followed, returned⟩ := followed
  have ran := Run.of_follow followed
  have facts :=
    statuses_single_owner (fun log change => change :: log) none
      (some 50001) [] handedOver scanner
  exact
    ⟨scanner, ran, facts.1 (ran.weaken fun _ _ _ => trivial), returned,
      facts.2 ran returned⟩

/-- A stop that has returned can leave the scan online. -/
theorem stopped_in_between_online :
    ∃ scanner : ElectrumScanner Nat (List Nat),
      Run (step (fun log change => change :: log) none) AnyStep
          (new (some 50001) []) stoppedInBetween scanner ∧
        scanner.caller = .idle (some .stop) ∧ scanner.online = true := by
  have followed :
      ∃ scanner : ElectrumScanner Nat (List Nat),
        follow (guarded AnyStep (step (fun log change => change :: log) none))
            (new (some 50001) []) stoppedInBetween = some scanner ∧
          scanner.caller = .idle (some .stop) ∧ scanner.online = true :=
    ⟨_, rfl, rfl, rfl⟩
  obtain ⟨scanner, followed, returned⟩ := followed
  exact ⟨scanner, Run.of_follow followed, returned⟩

end ElectrumScanner

end Bwk.ScanThread
