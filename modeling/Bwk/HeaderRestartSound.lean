import Bwk.HeaderRestart

namespace Bwk.HeaderRestart

/-!
# When a header store has one writer

A token that is bumped and then read by nobody else belongs to one pair of
connections.  That settles who may write; that the senders in the slots belong
to the same pair takes that nobody takes or replaces the sender of the current
token while the stop flag is clear.
-/

variable {store next : HeaderStore}

namespace CallPhase

/-- Past the bump of the token, and not past the read of it. -/
@[simp]
def unread : CallPhase → Bool
  | .connecting | .connectingMerkle | .readingToken => true
  | _ => false

@[simp]
def token? : CallPhase → Option Nat
  | .settingHeaderReq token | .settingMerkleReq token
  | .startingMerkleWorker token | .startingHeaderWorker token => some token
  | _ => none

/-- The header sender is not installed yet. -/
def beforeHeaderReq : CallPhase → Bool
  | .settingMerkleReq _ | .startingMerkleWorker _ | .startingHeaderWorker _
  | .returned _ => false
  | _ => true

/-- The merkle sender is not installed yet. -/
def beforeMerkleReq : CallPhase → Bool
  | .startingMerkleWorker _ | .startingHeaderWorker _ | .returned _ => false
  | _ => true

/-- The header thread is not started yet. -/
def beforeThread : CallPhase → Bool
  | .returned _ => false
  | _ => true

/-- The call is to make, or is making, the connections of a token. -/
@[simp]
def Busy (token : Nat) (phase : CallPhase) : Prop :=
  phase = .bumpingToken ∨ phase.unread = true ∨ phase.token? = some token

end CallPhase

/-- A slot may be emptied or filled: the store is stopped, or the sender it
holds is not that of the current token. -/
def HeaderStore.Spares (store : HeaderStore) (slot : Option Sender) : Prop :=
  store.stopped = true ∨
    ∀ sender ∈ slot, sender.token ≠ store.writerToken

/-- What a step of a call must not do. -/
def HeaderStore.Clear
    (store : HeaderStore)
    (connects : Bool) : CallPhase → Prop
  -- The counter does not wrap, and no other call is yet to read its token.
  | .bumpingToken =>
      store.writerToken + 1 < 2 ^ 64 ∧
        ∀ call ∈ store.calls, call.phase.unread = false
  -- A connect may fail when the store is stopped or another call takes over.
  | .connecting | .connectingMerkle =>
      connects = true ∨ store.stopped = true ∨
        ∃ call ∈ store.calls, call.phase = .bumpingToken
  | .takingHeaderReq | .settingHeaderReq _ => store.Spares store.headerReq
  | .takingMerkleReq | .settingMerkleReq _ => store.Spares store.merkleReq
  | _ => True

/-- A step that leaves the connections of the current token alone. -/
def Undisturbed (store : HeaderStore) : StoreEvent → Prop
  | .advances call connects =>
      ∀ found ∈ store.calls[call]?, store.Clear connects found.phase
  | .forwarderClears _ => store.Spares store.merkleReq
  | .called _ | .workerExits _ | .forwarderChecks _ => True

/-- Whoever came by a token: a call that read it, the header thread it started,
and the senders it installed. -/
inductive HeaderStore.Holds (store : HeaderStore) (token : Nat) :
    Option Nat → Prop where
  | call
      {index : Nat}
      {call : Call}
      (found : store.calls[index]? = some call)
      (read : call.phase.token? = some token) :
      Holds store token (some index)
  | thread
      {thread : HeaderThread}
      (member : thread ∈ store.headerThreads)
      (same : thread.token = token) :
      Holds store token thread.origin
  | headerReq
      {sender : Sender}
      (installed : store.headerReq = some sender)
      (same : sender.token = token) :
      Holds store token sender.origin
  | merkleReq
      {sender : Sender}
      (installed : store.merkleReq = some sender)
      (same : sender.token = token) :
      Holds store token sender.origin

/-- Tokens are held by one pair of connections each. -/
structure HeaderStore.Tokens (store : HeaderStore) : Prop where
  bounded : ∀ {token origin}, store.Holds token origin → token ≤ store.writerToken
  unique :
    ∀ {token first second},
      store.Holds token first → store.Holds token second → first = second
  /-- Between a bump and the read of it, nobody holds the new token. -/
  fresh :
    ∀ {call origin},
      call ∈ store.calls → call.phase.unread = true →
        ¬ store.Holds store.writerToken origin
  oneUnread :
    ∀ {first second : Nat} {call other : Call},
      store.calls[first]? = some call → store.calls[second]? = some other →
        call.phase.unread = true → other.phase.unread = true →
        first = second

variable {calls : List Call}

theorem goto_calls
    {moved index : Nat}
    {before call : Call}
    {phase : CallPhase}
    (found : calls[moved]? = some before)
    (after :
      (calls.modify moved fun call =>
        { call with phase := phase })[index]? = some call) :
    index = moved ∧ call = { before with phase := phase } ∨
      index ≠ moved ∧ calls[index]? = some call := by
  rw [List.getElem?_modify] at after
  by_cases same : moved = index
  · subst same
    simp only [found, if_true, Option.map_eq_map, Option.map_some] at after
    exact .inl ⟨rfl, (Option.some.inj after).symm⟩
  · simp only [if_neg same, Option.map_eq_map, Option.map_id'] at after
    exact .inr ⟨fun equal => same equal.symm, after⟩

theorem goto_here
    {moved : Nat}
    {before : Call}
    (found : calls[moved]? = some before)
    (phase : CallPhase) :
    (calls.modify moved fun call => { call with phase := phase })[moved]? =
      some { before with phase := phase } := by
  rw [List.getElem?_modify, found]
  simp

theorem goto_other
    {moved index : Nat}
    (apart : index ≠ moved)
    (phase : CallPhase) :
    (calls.modify moved fun call => { call with phase := phase })[index]? =
      calls[index]? := by
  simp [apart.symm]

namespace HeaderStore

/-- Whoever holds a token after a step held it before, when that is so of each
place a token is kept. -/
theorem Holds.frame
    {token : Nat}
    {origin : Option Nat}
    (holds : next.Holds token origin)
    (calls :
      ∀ {index : Nat} {call : Call} {token : Nat},
        next.calls[index]? = some call → call.phase.token? = some token →
          store.Holds token (some index))
    (threads :
      ∀ thread ∈ next.headerThreads, store.Holds thread.token thread.origin)
    (headerReq :
      ∀ sender ∈ next.headerReq, store.Holds sender.token sender.origin)
    (merkleReq :
      ∀ sender ∈ next.merkleReq, store.Holds sender.token sender.origin) :
    store.Holds token origin := by
  cases holds with
  | call found read => exact calls found read
  | thread member same => exact same ▸ threads _ member
  | headerReq installed same => exact same ▸ headerReq _ installed
  | merkleReq installed same => exact same ▸ merkleReq _ installed

theorem Tokens.frame
    (tokens : store.Tokens)
    (same : next.writerToken = store.writerToken)
    (holds :
      ∀ {token origin}, next.Holds token origin → store.Holds token origin)
    (unread :
      ∀ {index : Nat} {call : Call}, next.calls[index]? = some call →
        call.phase.unread = true →
          ∃ before,
            store.calls[index]? = some before ∧
              before.phase.unread = true) :
    next.Tokens where
  bounded held := by
    rw [same]
    exact tokens.bounded (holds held)
  unique first second := tokens.unique (holds first) (holds second)
  fresh member isUnread held := by
    obtain ⟨index, found⟩ := List.mem_iff_getElem?.mp member
    obtain ⟨before, found', isUnread'⟩ := unread found isUnread
    rw [same] at held
    exact
      tokens.fresh (List.mem_of_getElem? found') isUnread' (holds held)
  oneUnread found found' isUnread isUnread' := by
    obtain ⟨_, before, unread₁⟩ := unread found isUnread
    obtain ⟨_, before', unread₂⟩ := unread found' isUnread'
    exact tokens.oneUnread before before' unread₁ unread₂

section Moves

variable {moved : Nat} {before : Call} {phase : CallPhase}

theorem Tokens.move
    (tokens : store.Tokens)
    (found : store.calls[moved]? = some before)
    (calls :
      next.calls =
        store.calls.modify moved fun call => { call with phase := phase })
    (same : next.writerToken = store.writerToken)
    (holds :
      ∀ token, phase.token? = some token →
        before.phase.token? = some token)
    (unread : phase.unread = true → before.phase.unread = true)
    (threads :
      ∀ thread ∈ next.headerThreads, store.Holds thread.token thread.origin)
    (headerReq :
      ∀ sender ∈ next.headerReq, store.Holds sender.token sender.origin)
    (merkleReq :
      ∀ sender ∈ next.merkleReq, store.Holds sender.token sender.origin) :
    next.Tokens := by
  refine tokens.frame same (fun held => held.frame ?_ threads headerReq
    merkleReq) ?_
  · intro index call token after read
    rw [calls] at after
    rcases goto_calls found after with ⟨rfl, rfl⟩ | ⟨_, other⟩
    · exact .call found (holds token read)
    · exact .call other read
  · intro index call after isUnread
    rw [calls] at after
    rcases goto_calls found after with ⟨rfl, rfl⟩ | ⟨_, other⟩
    · exact ⟨before, found, unread isUnread⟩
    · exact ⟨call, other, isUnread⟩

theorem Tokens.bump
    (tokens : store.Tokens)
    (found : store.calls[moved]? = some before)
    (bound : store.writerToken + 1 < 2 ^ 64)
    (settled : ∀ call ∈ store.calls, call.phase.unread = false) :
    ({ store with
        writerToken := (store.writerToken + 1) % 2 ^ 64 }.goto moved
      .connecting).Tokens := by
  have sum :
      (store.writerToken + 1) % 2 ^ 64 = store.writerToken + 1 :=
    Nat.mod_eq_of_lt bound
  have held :
      ∀ {token origin},
        ({ store with
            writerToken := (store.writerToken + 1) % 2 ^ 64 }.goto moved
          .connecting).Holds token origin → store.Holds token origin := by
    intro token origin held
    refine
      held.frame ?_ (fun _ member => .thread member rfl)
        (fun _ installed => .headerReq installed rfl)
        fun _ installed => .merkleReq installed rfl
    intro index call token after read
    rcases goto_calls found after with ⟨rfl, rfl⟩ | ⟨_, other⟩
    · cases read
    · exact .call other read
  have isMoved {index : Nat} {call : Call}
      (after :
        (store.calls.modify moved fun call =>
          { call with phase := .connecting })[index]? = some call)
      (isUnread : call.phase.unread = true) :
      index = moved := by
    rcases goto_calls found after with ⟨same, _⟩ | ⟨_, other⟩
    · exact same
    · rw [settled call (List.mem_of_getElem? other)] at isUnread
      cases isUnread
  refine
    { bounded := fun holds => ?_
      unique := fun first second => tokens.unique (held first) (held second)
      fresh := fun _ _ holds => ?_
      oneUnread := fun first second isUnread isUnread' => ?_ }
  · have before := tokens.bounded (held holds)
    show _ ≤ (store.writerToken + 1) % 2 ^ 64
    rw [sum]
    exact Nat.le_succ_of_le before
  · have before :
        (store.writerToken + 1) % 2 ^ 64 ≤ store.writerToken :=
      tokens.bounded (held holds)
    rw [sum] at before
    exact Nat.not_succ_le_self _ before
  · rw [isMoved first isUnread, isMoved second isUnread']

theorem Tokens.read
    (tokens : store.Tokens)
    (found : store.calls[moved]? = some before)
    (reading : before.phase = .readingToken) :
    (store.goto moved (.settingHeaderReq store.writerToken)).Tokens := by
  have unread : before.phase.unread = true := by
    rw [reading]
    rfl
  have nobody {origin : Option Nat} :
      ¬ store.Holds store.writerToken origin :=
    tokens.fresh (List.mem_of_getElem? found) unread
  have held {token : Nat} {origin : Option Nat}
      (holds :
        (store.goto moved
          (.settingHeaderReq store.writerToken)).Holds token origin) :
      (token = store.writerToken ∧ origin = some moved) ∨
        store.Holds token origin := by
    cases holds with
    | call after read =>
        rcases goto_calls found after with ⟨rfl, rfl⟩ | ⟨_, other⟩
        · exact .inl ⟨(Option.some.inj read).symm, rfl⟩
        · exact .inr (.call other read)
    | thread member same => exact .inr (.thread member same)
    | headerReq installed same => exact .inr (.headerReq installed same)
    | merkleReq installed same => exact .inr (.merkleReq installed same)
  have noneUnread {index : Nat} {call : Call}
      (after :
        (store.calls.modify moved fun call =>
          { call with
            phase := .settingHeaderReq store.writerToken })[index]? =
          some call) :
      call.phase.unread = false := by
    rcases goto_calls found after with ⟨_, rfl⟩ | ⟨apart, other⟩
    · rfl
    · by_contra isUnread
      exact
        apart
          (tokens.oneUnread other found (Bool.eq_true_of_not_eq_false isUnread)
            unread)
  refine
    { bounded := fun holds => ?_
      unique := fun first second => ?_
      fresh := fun member isUnread => ?_
      oneUnread := fun first _ isUnread _ => ?_ }
  · rcases held holds with ⟨rfl, _⟩ | holds
    · exact Nat.le_refl _
    · exact tokens.bounded holds
  · rcases held first with ⟨rfl, rfl⟩ | first
    · rcases held second with ⟨_, rfl⟩ | second
      · rfl
      · exact absurd second nobody
    · rcases held second with ⟨rfl, _⟩ | second
      · exact absurd first nobody
      · exact tokens.unique first second
  · obtain ⟨index, after⟩ := List.mem_iff_getElem?.mp member
    rw [noneUnread after] at isUnread
    cases isUnread
  · rw [noneUnread first] at isUnread
    cases isUnread

/-- Every allowed step of a call leaves each token to one pair of
connections. -/
theorem Tokens.advance
    (tokens : store.Tokens)
    (found : store.calls[moved]? = some before)
    {connects : Bool}
    (clear : store.Clear connects before.phase)
    (advanced :
      store.advance moved before.restarts connects before.phase =
        some next) :
    next.Tokens := by
  have threads :
      ∀ thread ∈ store.headerThreads,
        store.Holds thread.token thread.origin :=
    fun _ member => .thread member rfl
  have headerReq :
      ∀ sender ∈ store.headerReq, store.Holds sender.token sender.origin :=
    fun _ installed => .headerReq installed rfl
  have merkleReq :
      ∀ sender ∈ store.merkleReq, store.Holds sender.token sender.origin :=
    fun _ installed => .merkleReq installed rfl
  cases phase : before.phase with
  | settingStopped | stoppingHeaderWorker | clearingStopped =>
      rw [phase] at advanced
      cases advanced
      exact
        tokens.move found rfl rfl nofun nofun threads headerReq merkleReq
  | takingHeaderReq =>
      rw [phase] at advanced
      cases advanced
      exact tokens.move found rfl rfl nofun nofun threads nofun merkleReq
  | takingMerkleReq =>
      rw [phase] at advanced
      cases advanced
      exact tokens.move found rfl rfl nofun nofun threads headerReq nofun
  | stoppingMerkleWorker =>
      rw [phase] at advanced
      cases advanced
      refine
        tokens.move found rfl rfl ?_ ?_ threads headerReq merkleReq <;>
        cases before.restarts <;> exact nofun
  | bumpingToken =>
      rw [phase] at advanced clear
      cases advanced
      exact tokens.bump found clear.1 clear.2
  | connecting | connectingMerkle =>
      rw [phase] at advanced
      cases advanced
      refine
        tokens.move found rfl rfl ?_ (fun _ => by rw [phase]; rfl) threads
          headerReq merkleReq
      cases connects <;> exact nofun
  | readingToken =>
      rw [phase] at advanced
      cases advanced
      exact tokens.read found phase
  | settingHeaderReq token =>
      rw [phase] at advanced
      cases advanced
      refine
        tokens.move found rfl rfl ?_ nofun threads ?_ merkleReq
      · rw [phase]
        exact fun _ held => held
      · rintro sender ⟨⟩
        exact .call found (by rw [phase]; rfl)
  | settingMerkleReq token =>
      rw [phase] at advanced
      cases advanced
      refine
        tokens.move found rfl rfl ?_ nofun threads headerReq ?_
      · rw [phase]
        exact fun _ held => held
      · rintro sender ⟨⟩
        exact .call found (by rw [phase]; rfl)
  | startingMerkleWorker token =>
      rw [phase] at advanced
      cases advanced
      refine
        tokens.move found rfl rfl ?_ nofun threads headerReq merkleReq
      rw [phase]
      exact fun _ held => held
  | startingHeaderWorker token =>
      rw [phase] at advanced
      cases advanced
      refine
        tokens.move found rfl rfl nofun nofun ?_ headerReq merkleReq
      intro thread member
      rcases List.mem_append.mp member with old | new
      · exact threads thread old
      · rw [List.mem_singleton] at new
        subst new
        exact .call found (by rw [phase]; rfl)
  | returned ok =>
      rw [phase] at advanced
      cases advanced

end Moves

def Past
    (early : CallPhase → Bool)
    (store : HeaderStore)
    (index : Nat) : Prop :=
  ∃ call, store.calls[index]? = some call ∧ early call.phase = false

/-- Threads, installed senders and stopped clients come from calls that made
them, one each, and an installed sender is not yet asked to stop. -/
structure Origins (store : HeaderStore) : Prop where
  apart : (store.headerThreads.map HeaderThread.origin).Nodup
  threads :
    ∀ thread ∈ store.headerThreads, ∀ index,
      thread.origin = some index → store.Past CallPhase.beforeThread index
  asked :
    ∀ index,
      some index ∈ store.stoppedClients → store.Past CallPhase.beforeHeaderReq index
  installed :
    ∀ sender ∈ store.headerReq, ∀ index,
      sender.origin = some index → store.Past CallPhase.beforeHeaderReq index
  spared :
    ∀ sender ∈ store.headerReq, sender.origin ∉ store.stoppedClients

section Moves

variable {moved : Nat} {before : Call} {phase : CallPhase}

theorem Past.move
    {early : CallPhase → Bool}
    {index : Nat}
    (past : store.Past early index)
    (found : store.calls[moved]? = some before)
    (calls :
      next.calls =
        store.calls.modify moved fun call => { call with phase := phase })
    (onward : early phase = true → early before.phase = true) :
    next.Past early index := by
  obtain ⟨call, found', past⟩ := past
  by_cases same : index = moved
  · subst same
    cases found.symm.trans found'
    refine ⟨_, calls ▸ goto_here found phase, ?_⟩
    by_contra still
    rw [onward (Bool.eq_true_of_not_eq_false still)] at past
    cases past
  · exact ⟨call, calls ▸ (goto_other same phase).trans found', past⟩

theorem Origins.move
    (origins : store.Origins)
    (found : store.calls[moved]? = some before)
    (calls :
      next.calls =
        store.calls.modify moved fun call => { call with phase := phase })
    (header :
      phase.beforeHeaderReq = true → before.phase.beforeHeaderReq = true)
    (thread : phase.beforeThread = true → before.phase.beforeThread = true)
    (threads : next.headerThreads = store.headerThreads)
    (headerReq : next.headerReq = store.headerReq)
    (asked : next.stoppedClients = store.stoppedClients) :
    next.Origins where
  apart := by
    rw [threads]
    exact origins.apart
  threads := by
    rw [threads]
    exact fun thread' member index same =>
      (origins.threads thread' member index same).move found calls thread
  asked := by
    rw [asked]
    exact fun index member =>
      (origins.asked index member).move found calls header
  installed := by
    rw [headerReq]
    exact fun sender member index same =>
      (origins.installed sender member index same).move found calls header
  spared := by
    rw [headerReq, asked]
    exact origins.spared

theorem Origins.advance
    (origins : store.Origins)
    (found : store.calls[moved]? = some before)
    {connects : Bool}
    (advanced :
      store.advance moved before.restarts connects before.phase =
        some next) :
    next.Origins := by
  cases phase : before.phase with
  | settingStopped | takingMerkleReq | stoppingHeaderWorker
  | stoppingMerkleWorker | clearingStopped | bumpingToken | connecting
  | connectingMerkle | readingToken | settingMerkleReq
  | startingMerkleWorker =>
      rw [phase] at advanced
      cases advanced
      refine origins.move found rfl ?_ ?_ rfl rfl rfl <;> rw [phase] <;>
        first
        | exact fun _ => rfl
        | exact nofun
  | takingHeaderReq =>
      rw [phase] at advanced
      cases advanced
      have onward {index : Nat}
          (past : store.Past CallPhase.beforeHeaderReq index) :
          (store.takeHeaderReq.goto moved .takingMerkleReq).Past
            CallPhase.beforeHeaderReq index :=
        past.move found rfl (by rw [phase]; exact fun _ => rfl)
      exact
        { apart := origins.apart
          threads := fun thread member index same =>
            (origins.threads thread member index same).move found rfl
              (by rw [phase]; exact fun _ => rfl)
          asked := fun index member => by
            rcases List.mem_append.mp member with old | new
            · exact onward (origins.asked index old)
            · rw [Option.mem_toList, Option.map_eq_some_iff] at new
              obtain ⟨sender, installed, same⟩ := new
              exact onward (origins.installed sender installed index same)
          installed := nofun
          spared := nofun }
  | settingHeaderReq token =>
      rw [phase] at advanced
      cases advanced
      have early : before.phase.beforeHeaderReq = true := by
        rw [phase]
        rfl
      exact
        { apart := origins.apart
          threads := fun thread member index same =>
            (origins.threads thread member index same).move found rfl
              (by rw [phase]; exact fun _ => rfl)
          asked := fun index member =>
            (origins.asked index member).move found rfl nofun
          installed := by
            rintro sender ⟨⟩ index ⟨⟩
            exact ⟨_, goto_here found _, rfl⟩
          spared := by
            rintro sender ⟨⟩ asked
            obtain ⟨call, found', past⟩ := origins.asked moved asked
            cases found.symm.trans found'
            rw [early] at past
            cases past }
  | startingHeaderWorker token =>
      rw [phase] at advanced
      cases advanced
      have early : before.phase.beforeThread = true := by
        rw [phase]
        rfl
      exact
        { apart := by
            show (List.map HeaderThread.origin
              (store.headerThreads ++
                [(⟨some moved, token, true⟩ : HeaderThread)])).Nodup
            rw [List.map_append, List.nodup_append]
            refine ⟨origins.apart, List.nodup_singleton _, ?_⟩
            intro origin member started new same
            obtain ⟨thread, present, rfl⟩ := List.mem_map.mp member
            rw [List.mem_singleton.mp new] at same
            obtain ⟨call, found', past⟩ :=
              origins.threads thread present moved same
            cases found.symm.trans found'
            rw [early] at past
            cases past
          threads := by
            intro thread member index same
            rcases List.mem_append.mp member with old | new
            · exact
                (origins.threads thread old index same).move found rfl nofun
            · rw [List.mem_singleton.mp new] at same
              cases same
              exact ⟨_, goto_here found _, rfl⟩
          asked := fun index member =>
            (origins.asked index member).move found rfl nofun
          installed := fun sender member index same =>
            (origins.installed sender member index same).move found rfl nofun
          spared := origins.spared }
  | returned ok =>
      rw [phase] at advanced
      cases advanced

end Moves

/-- A pair of connections holds the sender slots of the current token. -/
def InSlot
    (store : HeaderStore)
    (slot : Option Sender)
    (origin : Option Nat) : Prop :=
  slot = some ⟨origin, store.writerToken⟩

/-- Who is to make, or made, the connections of the current token. -/
inductive Headed (store : HeaderStore) : Prop where
  | untouched (all : ∀ call ∈ store.calls, call.phase = .settingStopped)
  | bumping
      {index : Nat}
      {call : Call}
      (found : store.calls[index]? = some call)
      (bumps : call.phase = .bumpingToken)
  | unread
      {index : Nat}
      {call : Call}
      (found : store.calls[index]? = some call)
      (reads : call.phase.unread = true)
  | installing
      {index : Nat}
      {call : Call}
      (found : store.calls[index]? = some call)
      (read : call.phase.token? = some store.writerToken)
      (header :
        call.phase.beforeHeaderReq = false →
          store.InSlot store.headerReq (some index))
      (merkle :
        call.phase.beforeMerkleReq = false →
          store.InSlot store.merkleReq (some index))
  | working
      {index : Nat}
      {thread : HeaderThread}
      (found : store.headerThreads[index]? = some thread)
      (live : thread.live = true)
      (token : thread.token = store.writerToken)
      (header : store.InSlot store.headerReq thread.origin)
      (merkle : store.InSlot store.merkleReq thread.origin)

/-- What a step must leave for the connections of the current token to stay
where they are. -/
structure Leaves (store next : HeaderStore) : Prop where
  token : next.writerToken = store.writerToken
  header :
    ∀ {origin}, store.InSlot store.headerReq origin →
      next.InSlot next.headerReq origin
  merkle :
    ∀ {origin}, store.InSlot store.merkleReq origin →
      next.InSlot next.merkleReq origin
  threads :
    ∀ {index : Nat} {thread : HeaderThread},
      store.headerThreads[index]? = some thread → thread.live = true →
        thread.token = store.writerToken →
        store.InSlot store.headerReq thread.origin →
          next.headerThreads[index]? = some thread

/-- The connections of the current token stay where they are when the call
that makes them, if any, does not move. -/
theorem Headed.stays
    (headed : store.Headed)
    (leaves : store.Leaves next)
    (calls :
      ∀ {index : Nat} {call : Call},
        store.calls[index]? = some call →
          call.phase.Busy store.writerToken →
          next.calls[index]? = some call)
    (touched :
      (∀ call ∈ store.calls, call.phase = .settingStopped) →
        ∀ call ∈ next.calls, call.phase = .settingStopped) :
    next.Headed := by
  cases headed with
  | untouched all =>
      exact .untouched (touched all)
  | bumping found bumps =>
      exact .bumping (calls found (.inl bumps)) bumps
  | unread found reads =>
      exact .unread (calls found (.inr (.inl reads))) reads
  | installing found read header merkle =>
      refine
        .installing (calls found (.inr (.inr read))) ?_
          (fun past => leaves.header (header past))
          fun past => leaves.merkle (merkle past)
      rw [read, leaves.token]
  | working found live token header merkle =>
      refine
        .working (leaves.threads found live token header) live ?_
          (leaves.header header) (leaves.merkle merkle)
      rw [token, leaves.token]

section Moves

variable {moved : Nat} {before : Call} {phase : CallPhase}

/-- A slot that may be emptied does not hold the sender of the current
token. -/
theorem Spares.vacant
    {slot : Option Sender}
    {origin : Option Nat}
    (spares : store.Spares slot)
    (running : store.stopped = false) :
    ¬ store.InSlot slot origin := by
  intro installed
  rcases spares with stopped | apart
  · rw [running] at stopped
    cases stopped
  · exact apart _ installed rfl

/-- A call that is not about to make the connections of the current token moves
on. -/
theorem Headed.bystander
    (headed : store.Headed)
    (leaves : store.Leaves next)
    (found : store.calls[moved]? = some before)
    (calls :
      next.calls =
        store.calls.modify moved fun call => { call with phase := phase })
    (started : before.phase ≠ .settingStopped)
    (idle : ¬ before.phase.Busy store.writerToken) :
    next.Headed := by
  refine headed.stays leaves ?_ ?_
  · intro index call found' busy
    by_cases same : index = moved
    · subst same
      cases found.symm.trans found'
      exact absurd busy idle
    · rw [calls, goto_other same]
      exact found'
  · intro all
    exact absurd (all before (List.mem_of_getElem? found)) started

/-- The call that read the current token is the one installing, unless another
is about to bump it. -/
theorem Headed.mine
    (headed : store.Headed)
    (tokens : store.Tokens)
    (origins : store.Origins)
    (found : store.calls[moved]? = some before)
    (early : before.phase.beforeThread = true)
    (read : before.phase.token? = some store.writerToken) :
    (∃ index call,
        index ≠ moved ∧ store.calls[index]? = some call ∧
          call.phase = .bumpingToken) ∨
      ((before.phase.beforeHeaderReq = false →
          store.InSlot store.headerReq (some moved)) ∧
        (before.phase.beforeMerkleReq = false →
          store.InSlot store.merkleReq (some moved))) := by
  have holds : store.Holds store.writerToken (some moved) :=
    .call found read
  cases headed with
  | untouched all =>
      rw [all before (List.mem_of_getElem? found)] at read
      cases read
  | @bumping index call found' bumps =>
      refine .inl ⟨index, call, ?_, found', bumps⟩
      rintro rfl
      cases found.symm.trans found'
      rw [bumps] at read
      cases read
  | unread found' reads =>
      exact
        absurd holds (tokens.fresh (List.mem_of_getElem? found') reads)
  | installing found' read' header merkle =>
      cases tokens.unique holds (.call found' read')
      cases found.symm.trans found'
      exact .inr ⟨header, merkle⟩
  | working found' live token header merkle =>
      have member := List.mem_of_getElem? found'
      have same := tokens.unique holds (.thread member token)
      obtain ⟨call, found'', past⟩ :=
        origins.threads _ member moved same.symm
      cases found.symm.trans found''
      rw [early] at past
      cases past

/-- What a step leaves that keeps each slot, or finds that of the current token
not there. -/
theorem Leaves.of_slots
    (token : next.writerToken = store.writerToken)
    (header :
      next.headerReq = store.headerReq ∨
        ∀ {origin}, ¬ store.InSlot store.headerReq origin)
    (merkle :
      next.merkleReq = store.merkleReq ∨
        ∀ {origin}, ¬ store.InSlot store.merkleReq origin)
    (threads : next.headerThreads = store.headerThreads) :
    store.Leaves next where
  token := token
  header installed := by
    rcases header with same | vacant
    · rw [InSlot, same, token]
      exact installed
    · exact absurd installed vacant
  merkle installed := by
    rcases merkle with same | vacant
    · rw [InSlot, same, token]
      exact installed
    · exact absurd installed vacant
  threads found _ _ _ := by
    rw [threads]
    exact found

theorem Headed.owner
    (headed : store.Headed)
    (tokens : store.Tokens)
    (origins : store.Origins)
    (found : store.calls[moved]? = some before)
    (early : before.phase.beforeThread = true)
    (read : before.phase.token? = some store.writerToken)
    (calls :
      next.calls =
        store.calls.modify moved fun call => { call with phase := phase })
    (mine :
      (before.phase.beforeHeaderReq = false →
          store.InSlot store.headerReq (some moved)) →
        (before.phase.beforeMerkleReq = false →
          store.InSlot store.merkleReq (some moved)) →
        next.Headed) :
    next.Headed := by
  rcases headed.mine tokens origins found early read with
    ⟨index, call, apart, found', bumps⟩ | ⟨header, merkle⟩
  · have still : next.calls[index]? = some call := by
      rw [calls]
      exact (goto_other apart phase).trans found'
    exact .bumping still bumps
  · exact mine header merkle

theorem Headed.takenOver
    (found : store.calls[moved]? = some before)
    (apart : before.phase ≠ .bumpingToken)
    (taken :
      false = true ∨ store.stopped = true ∨
        ∃ call ∈ store.calls, call.phase = .bumpingToken)
    (running : store.stopped = false) :
    (store.goto moved phase).Headed := by
  rcases taken with impossible | stopped | ⟨call, member, bumps⟩
  · cases impossible
  · rw [running] at stopped
    cases stopped
  · obtain ⟨index, found'⟩ := List.mem_iff_getElem?.mp member
    refine .bumping ((goto_other ?_ _).trans found') bumps
    rintro rfl
    cases found.symm.trans found'
    exact apart bumps

/-- Every allowed step of a call keeps track of the connections of the current
token, while the stop flag is clear. -/
theorem Headed.advance
    (headed : store.stopped = false → store.Headed)
    (tokens : store.Tokens)
    (origins : store.Origins)
    (found : store.calls[moved]? = some before)
    {connects : Bool}
    (clear : store.Clear connects before.phase)
    (advanced :
      store.advance moved before.restarts connects before.phase =
        some next)
    (running : next.stopped = false) :
    next.Headed := by
  cases phase : before.phase with
  | settingStopped =>
      rw [phase] at advanced
      cases advanced
      cases running
  | takingHeaderReq =>
      rw [phase] at advanced clear
      cases advanced
      exact
        (headed running).bystander
          (.of_slots rfl (.inr (clear.vacant running)) (.inl rfl) rfl) found rfl
          (by rw [phase]; nofun) (by rw [phase]; simp)
  | takingMerkleReq =>
      rw [phase] at advanced clear
      cases advanced
      exact
        (headed running).bystander
          (.of_slots rfl (.inl rfl) (.inr (clear.vacant running)) rfl) found rfl
          (by rw [phase]; nofun) (by rw [phase]; simp)
  | stoppingHeaderWorker | stoppingMerkleWorker =>
      rw [phase] at advanced
      cases advanced
      exact
        (headed running).bystander (.of_slots rfl (.inl rfl) (.inl rfl) rfl) found rfl
          (by rw [phase]; nofun) (by rw [phase]; simp)
  | clearingStopped =>
      rw [phase] at advanced
      cases advanced
      exact .bumping (goto_here found _) rfl
  | bumpingToken =>
      rw [phase] at advanced
      cases advanced
      exact .unread (goto_here found _) rfl
  | connecting | connectingMerkle =>
      rw [phase] at advanced clear
      cases advanced
      cases connects with
      | true => exact .unread (goto_here found _) rfl
      | false =>
          exact Headed.takenOver found (by rw [phase]; nofun) clear running
  | readingToken =>
      rw [phase] at advanced
      cases advanced
      exact .installing (goto_here found _) rfl nofun nofun
  | settingHeaderReq token =>
      rw [phase] at advanced clear
      cases advanced
      by_cases current : token = store.writerToken
      · subst current
        refine
          (headed running).owner tokens origins found (by rw [phase]; rfl)
            (by rw [phase]; rfl) rfl fun _ _ => ?_
        exact .installing (goto_here found _) rfl (fun _ => rfl) nofun
      · exact
          (headed running).bystander
            (.of_slots rfl (.inr (clear.vacant running)) (.inl rfl) rfl) found rfl
            (by rw [phase]; nofun) (by rw [phase]; simp [current])
  | settingMerkleReq token =>
      rw [phase] at advanced clear
      cases advanced
      by_cases current : token = store.writerToken
      · subst current
        refine
          (headed running).owner tokens origins found (by rw [phase]; rfl)
            (by rw [phase]; rfl) rfl fun header _ => ?_
        exact
          .installing (goto_here found _) rfl
            (fun _ => header (by rw [phase]; rfl)) fun _ => rfl
      · exact
          (headed running).bystander
            (.of_slots rfl (.inl rfl) (.inr (clear.vacant running)) rfl) found rfl
            (by rw [phase]; nofun) (by rw [phase]; simp [current])
  | startingMerkleWorker token =>
      rw [phase] at advanced
      cases advanced
      by_cases current : token = store.writerToken
      · subst current
        refine
          (headed running).owner tokens origins found (by rw [phase]; rfl)
            (by rw [phase]; rfl) rfl fun header merkle => ?_
        exact
          .installing (goto_here found _) rfl
            (fun _ => header (by rw [phase]; rfl))
            fun _ => merkle (by rw [phase]; rfl)
      · exact
          (headed running).bystander (.of_slots rfl (.inl rfl) (.inl rfl) rfl) found rfl
            (by rw [phase]; nofun) (by rw [phase]; simp [current])
  | startingHeaderWorker token =>
      rw [phase] at advanced
      cases advanced
      by_cases current : token = store.writerToken
      · subst current
        refine
          (headed running).owner tokens origins found (by rw [phase]; rfl)
            (by rw [phase]; rfl) rfl fun header merkle => ?_
        exact
          .working List.getElem?_concat_length rfl rfl
            (header (by rw [phase]; rfl)) (merkle (by rw [phase]; rfl))
      · refine
          (headed running).bystander ?_ found rfl (by rw [phase]; nofun)
            (by rw [phase]; simp [current])
        exact
          { token := rfl
            header := fun installed => installed
            merkle := fun installed => installed
            threads := fun found' _ _ _ =>
              (List.getElem?_append_left
                (List.getElem?_eq_some_iff.mp found').1).trans found' }
  | returned ok =>
      rw [phase] at advanced
      cases advanced

end Moves

end HeaderStore

end Bwk.HeaderRestart
