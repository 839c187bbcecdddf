import Bwk.SignatureMerge

namespace Bwk.Hwi.Jade

/-!
# The parts of a long answer

A Jade returns a long PSBT in numbered parts.  `Jade::sign_tx` asks for the
next part until the number of the last one reaches their count, and takes both
the number and the count from each answer.
-/

variable {Shared Fields : Type}

/-- What the transport gives for each request, without end. -/
abbrev Answers := Nat → Except JadeError JadeResponse

/-- The bytes of a part, with the count of parts and its number. -/
def part (answer : Except JadeError JadeResponse) :
    Except JadeError (Bytes × UInt32 × UInt32) := do
  let response ← answer
  let bytes ← response.bytes
  match response.seqlen, response.seqnum with
  | some seqlen, some seqnum => .ok (bytes, seqlen, seqnum)
  | _, _ => .error .noErrorOrResult

/-- How the loop ends that has asked so often and read such a count and number:
with the bytes or an error, and after how many requests. -/
inductive Fetches (answers : Answers) :
    (asked : Nat) →
    (seqlen seqnum : UInt32) →
    Bytes →
    Except JadeError Bytes →
    (total : Nat) →
    Prop where
  | complete
      {asked : Nat}
      {seqlen seqnum : UInt32}
      {psbtBytes : Bytes}
      (reached : ¬ seqnum < seqlen) :
      Fetches answers asked seqlen seqnum psbtBytes (.ok psbtBytes) asked
  | failed
      {asked : Nat}
      {seqlen seqnum : UInt32}
      {psbtBytes : Bytes}
      {cause : JadeError}
      (below : seqnum < seqlen)
      (fails : part (answers asked) = .error cause) :
      Fetches answers asked seqlen seqnum psbtBytes (.error cause) (asked + 1)
  | more
      {asked total : Nat}
      {seqlen seqnum seqlen' seqnum' : UInt32}
      {psbtBytes bytes : Bytes}
      {outcome : Except JadeError Bytes}
      (below : seqnum < seqlen)
      (came : part (answers asked) = .ok (bytes, seqlen', seqnum'))
      (later :
        Fetches answers (asked + 1) seqlen' seqnum' (psbtBytes ++ bytes)
          outcome total) :
      Fetches answers asked seqlen seqnum psbtBytes outcome total

/-- How all the requests end, the one that sends the PSBT first. -/
inductive Ends (answers : Answers) :
    Except JadeError Bytes → (total : Nat) → Prop where
  | failed
      {cause : JadeError}
      (fails : (answers 0).bind JadeResponse.bytes = .error cause) :
      Ends answers (.error cause) 1
  | single
      {first : JadeResponse}
      {psbtBytes : Bytes}
      (came : answers 0 = .ok first)
      (has : first.bytes = .ok psbtBytes)
      (one :
        ∀ seqlen seqnum,
          first.seqlen = some seqlen → first.seqnum = some seqnum →
            ¬ seqlen > 1) :
      Ends answers (.ok psbtBytes) 1
  | several
      {first : JadeResponse}
      {psbtBytes : Bytes}
      {seqlen seqnum : UInt32}
      {outcome : Except JadeError Bytes}
      {total : Nat}
      (came : answers 0 = .ok first)
      (has : first.bytes = .ok psbtBytes)
      (count : first.seqlen = some seqlen)
      (number : first.seqnum = some seqnum)
      (long : seqlen > 1)
      (fetches : Fetches answers 1 seqlen seqnum psbtBytes outcome total) :
      Ends answers outcome total

/-- The answers that were read. -/
def readAnswers (answers : Answers) (start total : Nat) :
    List (Except JadeError JadeResponse) :=
  (List.range' start (total - start)).map answers

variable {asked total : Nat} {seqlen seqnum : UInt32} {psbtBytes : Bytes}
variable {outcome : Except JadeError Bytes}

variable {answers : Answers}

theorem Fetches.le
    (fetches :
      Fetches answers asked seqlen seqnum psbtBytes outcome total) :
    asked ≤ total := by
  induction fetches with
  | complete =>
      exact Nat.le_refl _
  | failed =>
      exact Nat.le_succ _
  | more _ _ _ inductionHypothesis =>
      exact Nat.le_of_succ_le inductionHypothesis

/-- What `extendedData` makes of its next answer. -/
theorem extendedData_cons
    {answer : Except JadeError JadeResponse}
    {later : List (Except JadeError JadeResponse)}
    (below : seqnum < seqlen) :
    Jade.extendedData (answer :: later) seqlen seqnum psbtBytes =
      match part answer with
      | .error cause => some (.error cause)
      | .ok (bytes, seqlen, seqnum) =>
          Jade.extendedData later seqlen seqnum (psbtBytes ++ bytes) := by
  have bounded := UInt32.lt_iff_toNat_lt.mp below
  have limit := seqlen.toNat_lt
  conv_lhs => unfold Jade.extendedData
  rw [if_pos below, if_pos (by omega)]
  cases answer with
  | error cause =>
      rfl
  | ok response =>
      cases has : response.bytes with
      | error cause =>
          simp [part, has, bind, Except.bind]
      | ok bytes =>
          cases count : response.seqlen <;> cases number : response.seqnum <;>
            simp [part, has, count, number, bind, Except.bind]

theorem readAnswers_succ
    {start total : Nat}
    (more : start < total) :
    readAnswers answers start total =
      answers start :: readAnswers answers (start + 1) total := by
  obtain ⟨left, same⟩ : ∃ left, total - start = left + 1 :=
    Nat.exists_eq_add_one.mpr (by omega)
  have rest : total - (start + 1) = left := by omega
  rw [readAnswers, readAnswers, same, rest]
  rfl

/-- On the answers it reads, the loop ends as `extendedData` does. -/
theorem Fetches.extendedData
    (fetches :
      Fetches answers asked seqlen seqnum psbtBytes outcome total) :
    Jade.extendedData (readAnswers answers asked total) seqlen seqnum psbtBytes =
      some outcome := by
  induction fetches with
  | complete reached =>
      unfold Jade.extendedData
      rw [if_neg reached]
  | failed below fails =>
      rw [readAnswers_succ (Nat.lt_succ_self _), extendedData_cons below, fails]
  | more below came later inductionHypothesis =>
      rw [readAnswers_succ later.le, extendedData_cons below, came]
      exact inductionHypothesis

/-- On the answers that are read, `signedBytes` ends in the same way. -/
theorem Ends.signedBytes
    {total : Nat}
    (ends : Ends answers outcome total) :
    Jade.signedBytes (readAnswers answers 0 total) = some outcome := by
  cases ends with
  | failed fails =>
      rw [readAnswers_succ Nat.zero_lt_one]
      cases came : answers 0 with
      | error cause =>
          rw [came] at fails
          cases fails
          rfl
      | ok first =>
          rw [came] at fails
          have has : first.bytes = _ := fails
          simp [Jade.signedBytes, has]
  | @single first psbtBytes came has one =>
      rw [readAnswers_succ Nat.zero_lt_one, came]
      cases count : first.seqlen with
      | none =>
          simp [Jade.signedBytes, has, count]
      | some seqlen =>
          cases number : first.seqnum with
          | none =>
              simp [Jade.signedBytes, has, count, number]
          | some seqnum =>
              have short := one seqlen seqnum count number
              simp [Jade.signedBytes, has, count, number, if_neg short]
  | several came has count number long fetches =>
      rw [readAnswers_succ fetches.le, came]
      simp only [Jade.signedBytes, has, count, number, if_pos long]
      exact fetches.extendedData

/-- The answer is the part of this index, counted from zero, of so many. -/
def IsPart
    (answer : Except JadeError JadeResponse)
    (count : UInt32)
    (index : Nat)
    (bytes : Bytes) : Prop :=
  ∃ response seqnum,
    answer = .ok response ∧ response.bytes = .ok bytes ∧
      response.seqlen = some count ∧ response.seqnum = some seqnum ∧
      seqnum.toNat = index + 1

/-- The bytes are those of all the parts in order, each once, or of the only
answer when it says nothing of parts. -/
def Assembled (answers : Answers) (psbtBytes : Bytes) : Prop :=
  ∃ first, answers 0 = .ok first ∧
    (first.seqlen = none ∧ first.bytes = .ok psbtBytes ∨
      ∃ (count : UInt32) (parts : List Bytes),
        0 < count.toNat ∧ parts.length = count.toNat ∧
          psbtBytes = parts.flatten ∧
          ∀ index bytes, parts[index]? = some bytes →
            IsPart (answers index) count index bytes)

/-- The answer repeats a number, goes back or skips one, or changes the count
of the first answer. -/
def OutOfSequence (answers : Answers) (index : Nat) : Prop :=
  ∃ first count response,
    answers 0 = .ok first ∧ first.seqlen = some count ∧
      answers index = .ok response ∧
      ¬ (response.seqlen = some count ∧
        ∃ seqnum, response.seqnum = some seqnum ∧ seqnum.toNat = index + 1)

/-- What is asked of `sign_tx`: it ends, what it parses is what the parts make,
and an answer out of sequence is the last one it reads, an error that leaves
the PSBT as it was. -/
structure Reassembles
    (deserialize : Bytes → Except String (Psbt Shared Fields))
    (answers : Answers)
    (psbt : Psbt Shared Fields) : Prop where
  ends : ∃ outcome total, Ends answers outcome total
  parses :
    ∀ psbtBytes total, Ends answers (.ok psbtBytes) total →
      Assembled answers psbtBytes
  refuses :
    ∀ outcome total index, Ends answers outcome total →
      index < total → OutOfSequence answers index →
      total = index + 1 ∧
        ∃ cause,
          Jade.signTx deserialize (readAnswers answers 0 total) psbt =
            some (psbt, .error cause)

/-- The parts come in order, up to the last one or to an answer that fails. -/
def InOrder (answers : Answers) : Prop :=
  (∃ cause, (answers 0).bind JadeResponse.bytes = .error cause) ∨
    (∃ first, answers 0 = .ok first ∧ first.seqlen = none) ∨
    ∃ count upTo,
      0 < upTo ∧ upTo ≤ count.toNat ∧
        (∀ index < upTo, ∃ bytes, IsPart (answers index) count index bytes) ∧
        (upTo = count.toNat ∨ ∃ cause, part (answers upTo) = .error cause)

variable {answers : Answers} {count : UInt32}

variable {answer : Except JadeError JadeResponse} {index : Nat}
variable {bytes : Bytes} {cause : JadeError}

theorem IsPart.part
    (isPart : IsPart answer count index bytes) :
    ∃ seqnum, part answer = .ok (bytes, count, seqnum) ∧
      seqnum.toNat = index + 1 := by
  obtain ⟨response, seqnum, rfl, has, counted, number, same⟩ := isPart
  exact ⟨seqnum, by simp [Jade.part, has, counted, number, bind, Except.bind],
    same⟩

theorem isPart_of_part
    {response : JadeResponse}
    (came : answer = .ok response)
    (parted : part answer = .ok (bytes, seqlen, seqnum))
    (sequenced :
      response.seqlen = some count ∧
        ∃ seqnum, response.seqnum = some seqnum ∧
          seqnum.toNat = index + 1) :
    seqlen = count ∧ seqnum.toNat = index + 1 ∧
      IsPart answer count index bytes := by
  obtain ⟨counted, number, numbered, same⟩ := sequenced
  subst came
  cases has : response.bytes with
  | error cause =>
      simp [part, has, bind, Except.bind] at parted
  | ok bytes' =>
      simp only [part, has, counted, numbered, bind, Except.bind,
        Except.ok.injEq, Prod.mk.injEq] at parted
      obtain ⟨rfl, rfl, rfl⟩ := parted
      exact ⟨rfl, same, response, number, rfl, has, counted, numbered, same⟩

theorem exists_of_part
    {parted : Bytes × UInt32 × UInt32}
    (came : part answer = .ok parted) :
    ∃ response, answer = .ok response := by
  cases answer with
  | error cause =>
      cases came
  | ok response =>
      exact ⟨response, rfl⟩

/-- While the parts come in order, the loop ends. -/
theorem exists_fetches
    {index upTo : Nat}
    (left : Nat)
    (short : upTo = index + left)
    (bounded : upTo ≤ count.toNat)
    (parts :
      ∀ later, index ≤ later → later < upTo →
        ∃ bytes, IsPart (answers later) count later bytes)
    (stops : upTo = count.toNat ∨ ∃ cause, part (answers upTo) = .error cause)
    {seqnum : UInt32}
    (number : seqnum.toNat = index)
    (psbtBytes : Bytes) :
    ∃ outcome total,
      Fetches answers index count seqnum psbtBytes outcome total := by
  induction left generalizing index seqnum psbtBytes with
  | zero =>
      obtain rfl : upTo = index := short
      by_cases below : seqnum < count
      · rcases stops with ended | ⟨cause, fails⟩
        · have := UInt32.lt_iff_toNat_lt.mp below
          omega
        · exact ⟨_, _, .failed below fails⟩
      · exact ⟨_, _, .complete below⟩
  | succ left inductionHypothesis =>
      obtain ⟨bytes, isPart⟩ := parts index (Nat.le_refl _) (by omega)
      obtain ⟨next, came, numbered⟩ := isPart.part
      have below : seqnum < count := UInt32.lt_iff_toNat_lt.mpr (by omega)
      obtain ⟨outcome, total, later⟩ :=
        inductionHypothesis (by omega)
          (fun later from' => parts later (by omega)) numbered
          (psbtBytes ++ bytes)
      exact ⟨outcome, total, .more below came later⟩

/-- While the parts come in order, the loop ends with them all, or with the
answer that fails. -/
theorem Fetches.inOrder
    {index upTo total : Nat}
    (fetches :
      Fetches answers index seqlen seqnum psbtBytes outcome total)
    (counted : seqlen = count)
    (number : seqnum.toNat = index)
    (reaches : index ≤ upTo)
    (bounded : upTo ≤ count.toNat)
    (parts :
      ∀ later, index ≤ later → later < upTo →
        ∃ bytes, IsPart (answers later) count later bytes)
    (stops :
      upTo = count.toNat ∨ ∃ cause, part (answers upTo) = .error cause) :
    (∃ rest : List Bytes,
      outcome = .ok (psbtBytes ++ rest.flatten) ∧ total = upTo ∧
        upTo = count.toNat ∧ index + rest.length = upTo ∧
        ∀ place bytes, rest[place]? = some bytes →
          IsPart (answers (index + place)) count (index + place) bytes) ∨
      total = upTo + 1 ∧ ∃ cause, outcome = .error cause := by
  induction fetches with
  | @complete index seqlen seqnum psbtBytes reached =>
      have passed : count.toNat ≤ index := by
        rw [← number, ← counted]
        exact Nat.le_of_not_lt fun below =>
          reached (UInt32.lt_iff_toNat_lt.mpr below)
      refine .inl ⟨[], ?_, by omega, by omega, ?_, nofun⟩
      · rw [List.flatten_nil, List.append_nil]
      · rw [List.length_nil]
        omega
  | @failed index _ _ _ cause below fails =>
      have last : index = upTo := by
        by_contra other
        obtain ⟨bytes, isPart⟩ := parts index (Nat.le_refl _) (by omega)
        obtain ⟨_, came, _⟩ := isPart.part
        rw [came] at fails
        cases fails
      exact .inr ⟨by omega, cause, rfl⟩
  | @more index total seqlen seqnum seqlen' seqnum' psbtBytes bytes outcome
      below came later inductionHypothesis =>
      have goesOn : index < upTo := by
        by_contra last
        have same : upTo = index := by omega
        rw [same] at stops
        rcases stops with ended | ⟨cause, fails⟩
        · have := UInt32.lt_iff_toNat_lt.mp below
          rw [counted] at this
          omega
        · rw [came] at fails
          cases fails
      obtain ⟨_, isPart⟩ := parts index (Nat.le_refl _) goesOn
      obtain ⟨_, came', numbered⟩ := isPart.part
      rw [came] at came'
      cases came'
      rcases inductionHypothesis rfl numbered goesOn
          (fun later from' => parts later (by omega)) with
        ⟨rest, same, ended, whole, length, each⟩ | failed
      · refine .inl ⟨bytes :: rest, ?_, ended, whole, ?_, ?_⟩
        · rw [same, List.flatten_cons, List.append_assoc]
        · rw [List.length_cons]
          omega
        · intro place bytes' listed
          cases place with
          | zero =>
              cases listed
              exact isPart
          | succ place =>
              have shifted : index + (place + 1) = index + 1 + place := by
                omega
              rw [shifted]
              exact each place bytes' listed
      · exact .inr failed

theorem not_outOfSequence
    {first bytes : Bytes}
    (starts : IsPart (answers 0) count 0 first)
    (isPart : IsPart (answers index) count index bytes) :
    ¬ OutOfSequence answers index := by
  rintro ⟨first', count', response, came, counted, came', out⟩
  obtain ⟨_, _, came'', _, counted', _⟩ := starts
  obtain ⟨_, seqnum, same, _, here, number, numbered⟩ := isPart
  rw [came] at came''
  cases came''
  rw [counted] at counted'
  cases counted'
  rw [came'] at same
  cases same
  exact out ⟨here, seqnum, number, numbered⟩

/-- A run that ends with an error leaves the PSBT as it was. -/
theorem Ends.signTx_of_error
    {total : Nat}
    (ends : Ends answers (.error cause) total)
    (deserialize : Bytes → Except String (Psbt Shared Fields))
    (psbt : Psbt Shared Fields) :
    Jade.signTx deserialize (readAnswers answers 0 total) psbt =
      some (psbt, .error cause.toHwiError) := by
  rw [Jade.signTx, Jade.returned, ends.signedBytes]
  rfl

/-- However parts in order end, they are assembled or the last answer fails. -/
theorem Ends.inOrder
    {upTo total : Nat}
    (ends : Ends answers outcome total)
    (positive : 0 < upTo)
    (bounded : upTo ≤ count.toNat)
    (parts :
      ∀ index < upTo, ∃ bytes, IsPart (answers index) count index bytes)
    (stops :
      upTo = count.toNat ∨ ∃ cause, part (answers upTo) = .error cause) :
    total = upTo ∧ (∃ bytes, outcome = .ok bytes ∧ Assembled answers bytes) ∨
      total = upTo + 1 ∧ ∃ cause, outcome = .error cause := by
  obtain ⟨bytes, starts⟩ := parts 0 positive
  obtain ⟨first, number, came, has, counted, numbered, one⟩ := id starts
  cases ends with
  | failed fails =>
      rw [came] at fails
      have has' : first.bytes = _ := fails
      rw [has] at has'
      cases has'
  | single came' has' short =>
      rw [came] at came'
      cases came'
      rw [has] at has'
      cases has'
      have few := short count number counted numbered
      have last : count.toNat = 1 := by
        have := Nat.le_of_not_lt fun more =>
          few (UInt32.lt_iff_toNat_lt.mpr more)
        have unit : (1 : UInt32).toNat = 1 := rfl
        omega
      refine .inl ⟨by omega, bytes, rfl, first, came, .inr ⟨count, [bytes],
        by omega, last.symm, (List.append_nil _).symm, ?_⟩⟩
      intro index bytes' listed
      cases index with
      | zero =>
          cases listed
          exact starts
      | succ index =>
          cases listed
  | several came' has' counted' numbered' long fetches =>
      rw [came] at came'
      cases came'
      rw [has] at has'
      cases has'
      rw [counted] at counted'
      cases counted'
      rw [numbered] at numbered'
      cases numbered'
      rcases fetches.inOrder rfl one positive bounded
          (fun later _ => parts later) stops with
        ⟨rest, same, ended, whole, length, each⟩ | failed
      · refine .inl ⟨ended, _, same, first, came, .inr ⟨count, bytes :: rest,
          by omega, ?_, rfl, ?_⟩⟩
        · rw [List.length_cons]
          omega
        · intro index bytes' listed
          cases index with
          | zero =>
              cases listed
              exact starts
          | succ index =>
              rw [Nat.add_comm]
              exact each index bytes' listed
      · exact .inr failed

theorem InOrder.ends (ordered : InOrder answers) :
    ∃ outcome total, Ends answers outcome total := by
  rcases ordered with
    ⟨cause, fails⟩ | ⟨first, came, unnumbered⟩ |
    ⟨count, upTo, positive, bounded, parts, stops⟩
  · exact ⟨_, _, .failed fails⟩
  · cases has : first.bytes with
    | error cause =>
        exact ⟨.error cause, 1, .failed (by rw [came]; exact has)⟩
    | ok bytes =>
        refine ⟨_, _, .single came has ?_⟩
        intro seqlen seqnum counted
        rw [unnumbered] at counted
        cases counted
  · obtain ⟨bytes, starts⟩ := parts 0 positive
    obtain ⟨first, number, came, has, counted, numbered, one⟩ := id starts
    by_cases long : count > 1
    · obtain ⟨outcome, total, fetches⟩ :=
        exists_fetches (upTo - 1) (by omega) bounded
          (fun later _ => parts later) stops one bytes
      exact ⟨_, _, .several came has counted numbered long fetches⟩
    · refine ⟨_, _, .single came has ?_⟩
      intro seqlen seqnum counted' _
      rw [counted] at counted'
      cases counted'
      exact long

/-- Parts in order are reassembled. -/
theorem InOrder.reassembles
    (ordered : InOrder answers)
    (deserialize : Bytes → Except String (Psbt Shared Fields))
    (psbt : Psbt Shared Fields) :
    Reassembles deserialize answers psbt := by
  refine ⟨ordered.ends, ?_, ?_⟩
  all_goals
    rcases ordered with
      ⟨cause, fails⟩ | ⟨first, came, unnumbered⟩ |
      ⟨count, upTo, positive, bounded, parts, stops⟩
  case refine_1.inl =>
    intro bytes total ends
    cases ends with
    | single came has _ | several came has _ _ _ _ =>
        rw [came] at fails
        have has' : JadeResponse.bytes _ = _ := fails
        rw [has] at has'
        cases has'
  case refine_1.inr.inl =>
    intro bytes total ends
    cases ends with
    | single came' has _ =>
        rw [came] at came'
        cases came'
        exact ⟨first, came, .inl ⟨unnumbered, has⟩⟩
    | several came' _ counted _ _ _ =>
        rw [came] at came'
        cases came'
        rw [unnumbered] at counted
        cases counted
  case refine_1.inr.inr =>
    intro bytes total ends
    rcases ends.inOrder positive bounded parts stops with
      ⟨_, bytes', same, assembled⟩ | ⟨_, cause, same⟩
    · cases same
      exact assembled
    · cases same
  case refine_2.inl =>
    intro outcome total index ends read out
    cases ends with
    | failed fails' =>
        exact ⟨by omega, _, Ends.signTx_of_error (.failed fails') deserialize psbt⟩
    | single came has _ | several came has _ _ _ _ =>
        rw [came] at fails
        have has' : JadeResponse.bytes _ = _ := fails
        rw [has] at has'
        cases has'
  case refine_2.inr.inl =>
    intro outcome total index ends read out
    obtain ⟨_, _, _, came', counted, _⟩ := out
    rw [came] at came'
    cases came'
    rw [unnumbered] at counted
    cases counted
  case refine_2.inr.inr =>
    intro outcome total index ends read out
    obtain ⟨_, starts⟩ := parts 0 positive
    have beyond : upTo ≤ index := by
      by_contra early
      obtain ⟨_, isPart⟩ := parts index (by omega)
      exact not_outOfSequence starts isPart out
    rcases id ends |>.inOrder positive bounded parts stops with
      ⟨same, _⟩ | ⟨same, cause, failed⟩
    · omega
    · subst failed
      exact ⟨by omega, _, ends.signTx_of_error deserialize psbt⟩

/-- A loop that fails, none of whose answers before the last is out of
sequence, read parts in order. -/
theorem Fetches.parts
    {index total : Nat}
    (fetches :
      Fetches answers index seqlen seqnum psbtBytes outcome total)
    (counted : seqlen = count)
    (number : seqnum.toNat = index)
    (failed : outcome = .error cause)
    (sequenced :
      ∀ index response, index + 1 < total → answers index = .ok response →
        response.seqlen = some count ∧
          ∃ seqnum, response.seqnum = some seqnum ∧
            seqnum.toNat = index + 1) :
    index < total ∧ total ≤ count.toNat ∧
      part (answers (total - 1)) = .error cause ∧
      ∀ later, index ≤ later → later + 1 < total →
        ∃ bytes, IsPart (answers later) count later bytes := by
  induction fetches with
  | complete =>
      cases failed
  | @failed index _ _ _ _ below fails =>
      cases failed
      have := UInt32.lt_iff_toNat_lt.mp below
      subst counted
      refine ⟨Nat.lt_succ_self _, by omega, fails, ?_⟩
      intro later start short
      omega
  | @more index total seqlen seqnum seqlen' seqnum' psbtBytes bytes outcome
      below came later inductionHypothesis =>
      obtain ⟨response, answered⟩ := exists_of_part came
      have goesOn : index + 1 < total := by
        refine Nat.lt_of_le_of_ne later.le ?_
        rintro rfl
        cases later with
        | complete =>
            cases failed
        | more _ _ later =>
            exact absurd later.le (Nat.not_succ_le_self _)
      obtain ⟨counted', number', isPart⟩ :=
        isPart_of_part answered came (sequenced index response goesOn answered)
      obtain ⟨_, bounded, fails, parts⟩ :=
        inductionHypothesis counted' number' failed sequenced
      refine ⟨by omega, bounded, fails, ?_⟩
      intro place start short
      by_cases here : place = index
      · rw [here]
        exact ⟨bytes, isPart⟩
      · exact parts place (by omega) short

/-- What `sign_tx` reassembles came in order. -/
theorem Reassembles.inOrder
    {deserialize : Bytes → Except String (Psbt Shared Fields)}
    {psbt : Psbt Shared Fields}
    (reassembles : Reassembles deserialize answers psbt) :
    InOrder answers := by
  obtain ⟨⟨outcome, total, ends⟩, parses, refuses⟩ := reassembles
  cases outcome with
  | ok psbtBytes =>
      obtain ⟨first, came, single | several⟩ := parses psbtBytes total ends
      · exact .inr (.inl ⟨first, came, single.1⟩)
      · obtain ⟨count, parts, positive, length, _, each⟩ := several
        refine .inr (.inr ⟨count, count.toNat, positive, Nat.le_refl _, ?_,
          .inl rfl⟩)
        intro index below
        rw [← length] at below
        exact ⟨_, each index _ (List.getElem?_eq_getElem below)⟩
  | error cause =>
      cases id ends with
      | failed fails =>
          exact .inl ⟨cause, fails⟩
      | @several first bytes count number _ _ came has counted numbered long
          fetches =>
          have sequenced :
              ∀ index response, index + 1 < total →
                answers index = .ok response →
                response.seqlen = some count ∧
                  ∃ seqnum, response.seqnum = some seqnum ∧
                    seqnum.toNat = index + 1 := by
            intro index response short answered
            by_contra out
            have last := (refuses _ total index ends (by omega)
              ⟨first, count, response, came, counted, answered, out⟩).1
            omega
          have longer : 0 + 1 < total := by
            refine Nat.lt_of_le_of_ne fetches.le ?_
            rintro rfl
            cases fetches with
            | more _ _ later =>
                exact absurd later.le (Nat.not_succ_le_self _)
          obtain ⟨_, number', same, one⟩ := sequenced 0 first longer came
          rw [numbered] at same
          cases same
          obtain ⟨_, bounded, fails, parts⟩ :=
            fetches.parts rfl one rfl sequenced
          refine .inr (.inr ⟨count, total - 1, by omega, by omega, ?_,
            .inr ⟨cause, fails⟩⟩)
          intro index below
          cases index with
          | zero =>
              exact ⟨bytes, first, number, came, has, counted, numbered, one⟩
          | succ index =>
              exact parts (index + 1) (by omega) (by omega)

/--
Whatever a Jade answers: `sign_tx` ends, parses nothing but the assembled parts
and refuses every answer out of sequence, exactly when the parts come in order
up to the last one or to an answer that fails.
-/
theorem reassembles_iff
    (deserialize : Bytes → Except String (Psbt Shared Fields))
    (answers : Answers)
    (psbt : Psbt Shared Fields) :
    Reassembles deserialize answers psbt ↔ InOrder answers :=
  ⟨Reassembles.inOrder, fun ordered => ordered.reassembles deserialize psbt⟩

/-- A part of three. -/
def third (number : UInt32) : Except JadeError JadeResponse :=
  .ok ⟨some 3, some number, some [number.toUInt8], none⟩

/-- A Jade that sends its first part over and over keeps `sign_tx` asking, and
one that skips from the first part to the last has the two of them parsed. -/
theorem third_not_reassembled :
    (¬ ∃ outcome total, Ends (fun _ => third 1) outcome total) ∧
      Ends (fun index => if index = 0 then third 1 else third 3)
        (.ok [1, 3]) 2 ∧
      ¬ Assembled (fun index => if index = 0 then third 1 else third 3)
        [1, 3] := by
  refine ⟨?_, ?_, ?_⟩
  · have repeats :
        ∀ {index total seqlen seqnum psbtBytes outcome},
          Fetches (fun _ => third 1) index seqlen seqnum psbtBytes outcome
            total →
          seqlen = 3 → seqnum = 1 → False := by
      intro index total seqlen seqnum psbtBytes outcome fetches
      induction fetches with
      | complete reached =>
          rintro rfl rfl
          exact reached (by decide)
      | failed _ fails =>
          cases fails
      | more _ came _ inductionHypothesis =>
          cases came
          intro _ _
          exact inductionHypothesis rfl rfl
    rintro ⟨outcome, total, ends⟩
    cases ends with
    | failed fails =>
        cases fails
    | single came _ short =>
        cases came
        exact short 3 1 rfl rfl (by decide)
    | several came _ counted numbered _ fetches =>
        cases came
        cases counted
        cases numbered
        exact repeats fetches rfl rfl
  · exact .several rfl rfl rfl rfl (by decide)
      (.more (by decide) rfl (.complete (by decide)))
  · rintro ⟨first, came, single | ⟨count, parts, positive, length, _, each⟩⟩
    · cases came
      cases single.1
    · rw [← length] at positive
      obtain ⟨_, _, came, _, counted, _⟩ :=
        each 0 _ (List.getElem?_eq_getElem positive)
      cases came
      cases counted
      have second : 1 < parts.length := by
        rw [length]
        decide
      obtain ⟨_, _, came, _, _, numbered, two⟩ :=
        each 1 _ (List.getElem?_eq_getElem second)
      cases came
      cases numbered
      cases two

end Bwk.Hwi.Jade
