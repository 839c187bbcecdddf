import Bwk.Transitions

namespace Bwk.Hwi

/-!
# The listener of the hardware-wallet service

`hwi/src/service.rs`: calls of `start` and `stop` count the consumers of one
service, and the first and the last of them bring its listener up and down.
The count, the shutdown flag and the thread handle are written one after the
other, so a call is modelled by the step it takes next.
-/

inductive Call where
  /-- `start`: add one to the count. -/
  | startCount
  /-- `start`, first caller: clear the shutdown flag. -/
  | startClear
  /-- `start`, first caller: spawn the listener. -/
  | startSpawn
  /-- `start`, first caller: keep the listener's handle. -/
  | startKeep (listener : Nat)
  /-- `stop`: load the count. -/
  | stopLoad
  /-- `stop`: take one from the count if it is still what was loaded. -/
  | stopExchange (current : Nat)
  /-- `stop`, last caller: raise the shutdown flag. -/
  | stopRaise
  /-- `stop`, last caller: take the listener's handle. -/
  | stopTake
  | returned
  deriving Repr, DecidableEq

/-- A listener thread, and whether it tested the flag since the last step of a
call. -/
structure ListenLoop where
  running : Bool
  tested : Bool
  deriving Repr, DecidableEq

/-- Whether a call is about to change what runs. -/
def Call.pivotal : Call → Bool
  | .startClear | .startSpawn | .stopRaise => true
  | _ => false

/-- The service, the calls made so far and the listeners spawned so far. -/
structure HwiService where
  refCount : Nat
  shutdown : Bool
  listenerHandle : Option Nat
  listeners : List ListenLoop
  calls : List Call
  deriving Repr, DecidableEq

/-- What can happen next, in any order. -/
inductive ServiceEvent where
  /-- A thread calls `start`. -/
  | start
  /-- A thread calls `stop`. -/
  | stop
  /-- A call takes its next step. -/
  | advance (call : Nat)
  /-- A listener tests the flag, once per cycle. -/
  | test (listener : Nat)
  deriving Repr, DecidableEq

/-- How many values the count can take: `fetch_add` wraps around there. -/
def countLimit : Nat := 2 ^ 64

namespace HwiService

def new : HwiService where
  refCount := 0
  shutdown := false
  listenerHandle := none
  listeners := []
  calls := []

/-- A call has moved on: the tests made so far came before that. -/
def moved
    (service : HwiService)
    (call : Nat)
    (next : Call) : HwiService :=
  { service with
    listeners := service.listeners.map fun loop => { loop with tested := false }
    calls := service.calls.set call next }

/-- The next step of a call. -/
def advance
    (service : HwiService)
    (call : Nat) : Call → Option HwiService
  | .startCount =>
      let counted :=
        { service with refCount := (service.refCount + 1) % countLimit }
      some (counted.moved call
        (if service.refCount = 0 then .startClear else .returned))
  | .startClear =>
      let cleared := { service with shutdown := false }
      some (cleared.moved call .startSpawn)
  | .startSpawn =>
      let spawned : HwiService :=
        { service with listeners := service.listeners ++ [⟨true, false⟩] }
      some (spawned.moved call (.startKeep service.listeners.length))
  | .startKeep listener =>
      let kept := { service with listenerHandle := some listener }
      some (kept.moved call .returned)
  | .stopLoad =>
      some (service.moved call
        (if service.refCount = 0 then .returned
        else .stopExchange service.refCount))
  | .stopExchange current =>
      -- Another call may have changed the count: load it again.
      let counted := { service with refCount := current - 1 }
      if service.refCount = current then
        some (counted.moved call
          (if current = 1 then .stopRaise else .returned))
      else
        some (service.moved call .stopLoad)
  | .stopRaise =>
      let raised := { service with shutdown := true }
      some (raised.moved call .stopTake)
  | .stopTake =>
      let taken := { service with listenerHandle := none }
      some (taken.moved call .returned)
  | .returned =>
      none

/-- A listener tests the flag, and exits when it is raised. -/
def test
    (service : HwiService)
    (listener : Nat) : HwiService :=
  { service with
    listeners := service.listeners.set listener ⟨!service.shutdown, true⟩ }

def step (service : HwiService) : ServiceEvent → Option HwiService
  | .start =>
      some { service with calls := service.calls ++ [.startCount] }
  | .stop =>
      some { service with calls := service.calls ++ [.stopLoad] }
  | .advance call =>
      service.calls[call]?.bind (service.advance call)
  | .test listener =>
      match service.listeners[listener]? with
      | some ⟨true, _⟩ => some (service.test listener)
      | _ => none

/-- How many listeners run. -/
def running (service : HwiService) : Nat :=
  service.listeners.countP ListenLoop.running

/-- Every call has returned, and every listener has since tested the flag. -/
def Settled (service : HwiService) : Prop :=
  (∀ call ∈ service.calls, call = .returned) ∧
    ∀ loop ∈ service.listeners, loop.running = true → loop.tested = true

/-- One listener runs while the service is in use, none otherwise. -/
def RunsWhileUsed (service : HwiService) : Prop :=
  service.running = if 0 < service.refCount then 1 else 0

/-- Whether a `stop` has taken the count to zero and is yet to raise the flag.
-/
def Stopping (service : HwiService) : Prop :=
  .stopRaise ∈ service.calls

instance (service : HwiService) : Decidable service.Settled :=
  inferInstanceAs (Decidable (_ ∧ _))

instance (service : HwiService) : Decidable service.RunsWhileUsed :=
  inferInstanceAs (Decidable (_ = _))

instance (service : HwiService) : Decidable service.Stopping :=
  inferInstanceAs (Decidable (_ ∈ _))

/--
A `start` may clear the flag: either the `stop` that undid it will still raise
it, or the service is in use, no `stop` is about to raise it, no listener is
left and no other `start` is bringing one up.
-/
def MayClear (service : HwiService) : Prop :=
  if service.Stopping then
    service.refCount = 0
  else
    0 < service.refCount ∧ service.running = 0 ∧
      service.calls.count .startSpawn = 0 ∧
      service.calls.count .startClear = 1

instance (service : HwiService) : Decidable service.MayClear :=
  inferInstanceAs <|
    Decidable
      (if service.Stopping then
        service.refCount = 0
      else
        0 < service.refCount ∧ service.running = 0 ∧
          service.calls.count .startSpawn = 0 ∧
          service.calls.count .startClear = 1)

/-- Steps in turn: the count does not wrap around, and the flag is cleared only
when it may be. -/
def InTurn (service : HwiService) : ServiceEvent → Prop
  | .advance call =>
      (service.calls[call]? = some .startCount →
        service.refCount + 1 < countLimit) ∧
      (service.calls[call]? = some .startClear → service.MayClear)
  | _ => True

instance : DecidableRel InTurn
  | _, .start => .isTrue trivial
  | _, .stop => .isTrue trivial
  | _, .advance _ => inferInstanceAs (Decidable (_ ∧ _))
  | _, .test _ => .isTrue trivial

variable {service next : HwiService}

@[simp] theorem moved_refCount (call : Nat) (then' : Call) :
    (service.moved call then').refCount = service.refCount :=
  rfl

@[simp] theorem moved_shutdown (call : Nat) (then' : Call) :
    (service.moved call then').shutdown = service.shutdown :=
  rfl

/-- Moving a call on leaves the listeners running. -/
@[simp] theorem moved_running (call : Nat) (then' : Call) :
    (service.moved call then').running = service.running := by
  simp only [running, moved, List.countP_map]
  rfl

variable {listener : Nat} {call : Nat} {then' : Call} {tested : Bool}
variable {current : Call}

theorem count_set_of
    {calls : List Call}
    (stood : calls[call]? = some current)
    (then' counted : Call) :
    (calls.set call then').count counted +
        (if current = counted then 1 else 0) =
      calls.count counted + (if then' = counted then 1 else 0) := by
  obtain ⟨inside, stands⟩ := List.getElem?_eq_some_iff.mp stood
  have counts : (if current = counted then 1 else 0) ≤ calls.count counted := by
    split
    case isTrue same =>
      rw [← same, ← stands]
      exact List.count_pos_iff.mpr (List.getElem_mem inside)
    case isFalse =>
      exact Nat.zero_le _
  rw [List.count_set inside, stands]
  simp only [beq_iff_eq]
  omega

theorem moved_untested
    {loop : ListenLoop}
    (present : loop ∈ (service.moved call then').listeners) :
    loop.tested = false := by
  obtain ⟨_, _, rfl⟩ := List.mem_map.mp present
  rfl

theorem test_running_of_lowered
    (listening : service.listeners[listener]? = some ⟨true, tested⟩)
    (lowered : service.shutdown = false) :
    (service.test listener).running = service.running := by
  obtain ⟨inside, stands⟩ := List.getElem?_eq_some_iff.mp listening
  have counts : 0 < service.listeners.countP ListenLoop.running := by
    rw [List.countP_pos_iff]
    exact ⟨_, List.getElem_mem inside, by rw [stands]⟩
  rw [running, test, List.countP_set inside, stands, lowered]
  simp only [running, Bool.not_false, ite_true]
  omega

theorem test_running_le
    (listening : service.listeners[listener]? = some ⟨true, tested⟩) :
    (service.test listener).running ≤ service.running := by
  obtain ⟨inside, stands⟩ := List.getElem?_eq_some_iff.mp listening
  have counts : 0 < service.listeners.countP ListenLoop.running := by
    rw [List.countP_pos_iff]
    exact ⟨_, List.getElem_mem inside, by rw [stands]⟩
  rw [running, test, List.countP_set inside, stands]
  simp only [running, ite_true]
  split <;> omega

/--
What steps in turn keep: out of use, the flag is up or about to be, unless
nothing runs; in use, the flag is about to be cleared, or it is down for one
listener that runs or is about to; and a listener that tested the flag and runs
found it down.
-/
structure Sound (service : HwiService) : Prop where
  unused :
    service.refCount = 0 →
      0 < service.calls.count .stopRaise ∨
        0 < service.calls.count .startClear ∨
        service.shutdown = true ∨
        service.running = 0 ∧ service.calls.count .startSpawn = 0
  used :
    0 < service.refCount →
      0 < service.calls.count .startClear ∨
        service.calls.count .stopRaise = 0 ∧
          service.shutdown = false ∧
          service.running + service.calls.count .startSpawn = 1
  tested :
    ∀ loop ∈ service.listeners,
      loop.running = true → loop.tested = true → service.shutdown = false

theorem new_sound : HwiService.new.Sound where
  unused _ := .inr (.inr (.inr ⟨rfl, rfl⟩))
  used used := absurd used (Nat.lt_irrefl 0)
  tested _ present := absurd present List.not_mem_nil

theorem sound_of_moved
    (unused :
      service.refCount = 0 →
        0 < (service.calls.set call then').count .stopRaise ∨
          0 < (service.calls.set call then').count .startClear ∨
          service.shutdown = true ∨
          service.running = 0 ∧
            (service.calls.set call then').count .startSpawn = 0)
    (used :
      0 < service.refCount →
        0 < (service.calls.set call then').count .startClear ∨
          (service.calls.set call then').count .stopRaise = 0 ∧
            service.shutdown = false ∧
            service.running +
              (service.calls.set call then').count .startSpawn = 1) :
    (service.moved call then').Sound where
  unused := by
    rw [moved_refCount, moved_shutdown, moved_running]
    exact unused
  used := by
    rw [moved_refCount, moved_shutdown, moved_running]
    exact used
  tested loop present _ tested := by
    rw [moved_untested present] at tested
    cases tested

/-- A step between calls that are about to change nothing keeps the service
sound, as long as it stays in use or out of use. -/
theorem Sound.aside
    (sound : service.Sound)
    {current then' : Call}
    (stood : service.calls[call]? = some current)
    (idle : current.pivotal = false)
    (idle' : then'.pivotal = false)
    {changed : HwiService}
    (calls : changed.calls = service.calls)
    (flag : changed.shutdown = service.shutdown)
    (listeners : changed.listeners = service.listeners)
    (use : changed.refCount = 0 ↔ service.refCount = 0) :
    (changed.moved call then').Sound := by
  have same :
      ∀ counted : Call, counted.pivotal = true →
        (service.calls.set call then').count counted =
          service.calls.count counted := by
    intro counted pivotal
    have counts := count_set_of stood then' counted
    rw [if_neg (by rintro rfl; rw [idle] at pivotal; cases pivotal),
      if_neg (by rintro rfl; rw [idle'] at pivotal; cases pivotal)] at counts
    exact counts
  have raises := same .stopRaise rfl
  have clears := same .startClear rfl
  have spawns := same .startSpawn rfl
  obtain ⟨unused, used, _⟩ := sound
  apply sound_of_moved
  · rw [calls, flag, running, listeners, raises, clears, spawns, use]
    exact unused
  · rw [calls, flag, running, listeners, raises, clears, spawns,
      Nat.pos_iff_ne_zero, Ne, use, ← Ne, ← Nat.pos_iff_ne_zero]
    exact used

theorem Sound.advance
    (sound : service.Sound)
    (stood : service.calls[call]? = some current)
    (turn : service.InTurn (.advance call))
    (stepped : service.advance call current = some next) :
    next.Sound := by
  obtain ⟨unused, used, _⟩ := id sound
  simp only [running] at unused used
  cases current with
  | startCount =>
      have counted : (service.refCount + 1) % countLimit = service.refCount + 1 :=
        Nat.mod_eq_of_lt (turn.1 stood)
      cases stepped
      by_cases fresh : service.refCount = 0
      · have clears := count_set_of stood .startClear .startClear
        rw [if_pos fresh]
        apply sound_of_moved <;> grind
      · rw [if_neg fresh]
        have stays :
            (service.refCount + 1) % countLimit = 0 ↔ service.refCount = 0 := by
          omega
        apply sound.aside stood <;> first | rfl | exact stays
  | startClear =>
      have may := turn.2 stood
      have clears := count_set_of stood .startSpawn .startClear
      have raises := count_set_of stood .startSpawn .stopRaise
      have spawns := count_set_of stood .startSpawn .startSpawn
      cases stepped
      simp only [MayClear, Stopping, ← List.count_pos_iff, running] at may
      apply sound_of_moved <;> simp only [running] <;> grind
  | startSpawn =>
      have clears := count_set_of stood
        (.startKeep service.listeners.length) .startClear
      have raises := count_set_of stood
        (.startKeep service.listeners.length) .stopRaise
      have spawns := count_set_of stood
        (.startKeep service.listeners.length) .startSpawn
      cases stepped
      apply sound_of_moved <;> simp only [running, List.countP_append] <;> grind
  | startKeep listener =>
      cases stepped
      apply sound.aside stood <;> rfl
  | stopLoad =>
      cases stepped
      have idle :
          (if service.refCount = 0 then Call.returned
            else .stopExchange service.refCount).pivotal = false := by
        split <;> rfl
      apply sound.aside stood <;> first | rfl | exact idle
  | stopExchange loaded =>
      rw [HwiService.advance] at stepped
      by_cases same : service.refCount = loaded
      · rw [if_pos same] at stepped
        cases stepped
        by_cases last : loaded = 1
        · have raises := count_set_of stood .stopRaise .stopRaise
          rw [if_pos last]
          apply sound_of_moved <;> grind
        · rw [if_neg last]
          have stays : loaded - 1 = 0 ↔ service.refCount = 0 := by
            omega
          apply sound.aside stood <;> first | rfl | exact stays
      · rw [if_neg same] at stepped
        cases stepped
        apply sound.aside stood <;> rfl
  | stopRaise =>
      have clears := count_set_of stood .stopTake .startClear
      have raises := count_set_of stood .stopTake .stopRaise
      have spawns := count_set_of stood .stopTake .startSpawn
      cases stepped
      apply sound_of_moved <;> simp only [running] <;> grind
  | stopTake =>
      cases stepped
      apply sound.aside stood <;> rfl
  | returned =>
      cases stepped

theorem Sound.test
    (sound : service.Sound)
    (listening : service.listeners[listener]? = some ⟨true, tested⟩) :
    (service.test listener).Sound where
  unused zero := by
    have fewer := test_running_le listening
    rcases sound.unused zero with raises | clears | raised | ⟨none, spawns⟩
    · exact .inl raises
    · exact .inr (.inl clears)
    · exact .inr (.inr (.inl raised))
    · exact .inr (.inr (.inr ⟨by omega, spawns⟩))
  used used := by
    rcases sound.used used with clears | ⟨raises, lowered, one⟩
    · exact .inl clears
    · rw [← test_running_of_lowered listening lowered] at one
      exact .inr ⟨raises, lowered, one⟩
  tested loop present runs tested := by
    rcases List.mem_or_eq_of_mem_set present with kept | rfl
    · exact sound.tested loop kept runs tested
    · exact (Bool.not_eq_eq_eq_not ..).mp runs

theorem Sound.called
    (sound : service.Sound)
    {call : Call}
    (idle : call.pivotal = false) :
    Sound { service with calls := service.calls ++ [call] } := by
  have same :
      ∀ counted : Call, counted.pivotal = true →
        (service.calls ++ [call]).count counted =
          service.calls.count counted := by
    intro counted pivotal
    have other : call ≠ counted := by
      rintro rfl
      rw [idle] at pivotal
      cases pivotal
    rw [List.count_append, List.count_singleton, beq_false_of_ne other,
      if_neg Bool.false_ne_true, Nat.add_zero]
  have raises := same .stopRaise rfl
  have clears := same .startClear rfl
  have spawns := same .startSpawn rfl
  exact
    { unused := by
        rw [raises, clears, spawns]
        exact sound.unused
      used := by
        rw [raises, clears, spawns]
        exact sound.used
      tested := sound.tested }

theorem Sound.step
    (sound : service.Sound)
    {event : ServiceEvent}
    (turn : service.InTurn event)
    (stepped : service.step event = some next) :
    next.Sound := by
  cases event with
  | start | stop =>
      cases stepped
      exact sound.called rfl
  | advance call =>
      obtain ⟨current, stood, advanced⟩ := Option.bind_eq_some_iff.mp stepped
      exact sound.advance stood turn advanced
  | test listener =>
      rw [HwiService.step] at stepped
      split at stepped
      case h_1 tested listening =>
        cases stepped
        exact sound.test listening
      case h_2 =>
        cases stepped

/-- A sound service whose calls have all returned, and whose listeners have
tested the flag since, runs one listener exactly while it is in use. -/
theorem Sound.runsWhileUsed
    (sound : service.Sound)
    (settled : service.Settled) :
    service.RunsWhileUsed := by
  obtain ⟨returned, tested⟩ := settled
  have gone :
      ∀ call : Call, call ≠ .returned → service.calls.count call = 0 := by
    intro call other
    rw [List.count_eq_zero]
    intro present
    exact other (returned call present)
  have clears := gone .startClear nofun
  have spawns := gone .startSpawn nofun
  have raises := gone .stopRaise nofun
  rw [RunsWhileUsed]
  by_cases used : 0 < service.refCount
  · rcases sound.used used with clearing | ⟨_, _, one⟩
    · omega
    · rw [if_pos used]
      omega
  · rw [if_neg used]
    rcases sound.unused (by omega) with raising | clearing | raised | ⟨none, _⟩
    · omega
    · omega
    · rw [running, List.countP_eq_zero]
      intro loop present runs
      have lowered := sound.tested loop present runs (tested loop present runs)
      rw [raised] at lowered
      cases lowered
    · exact none

/--
In a run whose steps are all in turn, one listener runs exactly while the
service is in use, whenever every call has returned and every listener has
tested the flag since.
-/
theorem in_turn_runsWhileUsed
    (events : List ServiceEvent)
    (ran : Run step InTurn new events service)
    (settled : service.Settled) :
    service.RunsWhileUsed := by
  have sound : service.Sound :=
    ran.invariant Sound new_sound
      fun sound turn stepped => sound.step turn stepped
  exact sound.runsWhileUsed settled

/-- The last user stops, the listener notices, and a new user starts. -/
def restarted : List ServiceEvent :=
  [.start, .advance 0, .advance 0, .advance 0, .advance 0, .test 0,
    .stop, .advance 1, .advance 1, .advance 1, .advance 1, .test 0,
    .start, .advance 2, .advance 2, .advance 2, .advance 2, .test 1]

/-- A restart whose steps are in turn leaves one listener. -/
theorem restarted_runsWhileUsed :
    ∃ service,
      Run step InTurn new restarted service ∧ service.Settled ∧
        service.RunsWhileUsed ∧ 0 < service.refCount := by
  have followed :
      ∃ service,
        follow (guarded InTurn step) new restarted = some service ∧
          service.Settled ∧ 0 < service.refCount :=
    ⟨_, rfl, by decide, by decide⟩
  obtain ⟨service, followed, settled, used⟩ := followed
  have ran := Run.of_follow followed
  exact
    ⟨service, ran, settled, in_turn_runsWhileUsed restarted ran settled, used⟩

/-- The last user stops and a new one starts before the listener, asleep,
tests the flag. -/
def resumedEarly : List ServiceEvent :=
  [.start, .advance 0, .advance 0, .advance 0, .advance 0, .test 0,
    .stop, .advance 1, .advance 1, .advance 1, .advance 1,
    .start, .advance 2, .advance 2, .advance 2, .advance 2,
    .test 0, .test 1]

/-- A new user starts between the last user's two writes. -/
def overtaken : List ServiceEvent :=
  [.start, .advance 0, .advance 0, .advance 0, .advance 0, .test 0,
    .stop, .advance 1, .advance 1,
    .start, .advance 2, .advance 2, .advance 2, .advance 2,
    .advance 1, .advance 1, .test 0, .test 1]

/-- A stop followed by a start can leave two listeners, and a stop that races
with a start can kill the listener that start has spawned. -/
theorem stop_and_start_not_runsWhileUsed :
    (∃ service,
      Run step AnyStep new resumedEarly service ∧ service.Settled ∧
        service.refCount = 1 ∧ service.running = 2 ∧
        ¬ service.RunsWhileUsed) ∧
    ∃ service,
      Run step AnyStep new overtaken service ∧ service.Settled ∧
        service.refCount = 1 ∧ service.running = 0 ∧
        ¬ service.RunsWhileUsed := by
  have early : ∃ service,
      follow (guarded AnyStep step) new resumedEarly = some service ∧
        service.Settled ∧ service.refCount = 1 ∧ service.running = 2 ∧
        ¬ service.RunsWhileUsed :=
    ⟨_, rfl, by decide⟩
  have late : ∃ service,
      follow (guarded AnyStep step) new overtaken = some service ∧
        service.Settled ∧ service.refCount = 1 ∧ service.running = 0 ∧
        ¬ service.RunsWhileUsed :=
    ⟨_, rfl, by decide⟩
  obtain ⟨twice, followed, broken⟩ := early
  obtain ⟨none, followed', broken'⟩ := late
  exact
    ⟨⟨twice, Run.of_follow followed, broken⟩,
      none, Run.of_follow followed', broken'⟩

end HwiService

end Bwk.Hwi
