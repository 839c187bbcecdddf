import Bwk.LineSplit

namespace Bwk.LineReader

/-!
# Reading lines off a connection

`electrum/src/raw_client/mod.rs`: two functions read lines off a stream, one
that waits for a line and one that does not.  They share a buffer, which holds
what was read beyond the last line.
-/

abbrev Bytes := List UInt8

def newline : UInt8 := 10

/-- Whether a byte may follow the first of a character of three or four. -/
def follows (first second : UInt8) : Bool :=
  if first = 0xE0 then 0xA0 ≤ second && second ≤ 0xBF
  else if first = 0xED then 0x80 ≤ second && second ≤ 0x9F
  else if first = 0xF0 then 0x90 ≤ second && second ≤ 0xBF
  else if first = 0xF4 then 0x80 ≤ second && second ≤ 0x8F
  else
    0xE0 ≤ first && first ≤ 0xF4 && 0x80 ≤ second && second ≤ 0xBF

/-- How many bytes of a broken character one replacement stands for. -/
def brokenLength : Bytes → Nat
  | first :: second :: rest =>
      if follows first second then
        match rest with
        | third :: _ => if 0x80 ≤ third && third ≤ 0xBF then 3 else 2
        | [] => 2
      else
        1
  | _ => 1

/-- Decode at most some number of characters, with a replacement for each
broken one. -/
def lossyChars : Nat → Bytes → List Char
  | 0, _ => []
  | _, [] => []
  | most + 1, bytes =>
      match bytes.toByteArray.utf8DecodeChar? 0 with
      | some char => char :: lossyChars most (bytes.drop char.utf8Size)
      | none =>
          Char.ofNat 0xFFFD :: lossyChars most (bytes.drop (brokenLength bytes))

def fromUtf8Lossy (bytes : Bytes) : String :=
  String.ofList (lossyChars bytes.length bytes)

def utf8 (chars : List Char) : Bytes :=
  chars.flatMap String.utf8EncodeChar

@[simp] theorem utf8_append (chars later : List Char) :
    utf8 (chars ++ later) = utf8 chars ++ utf8 later :=
  List.flatMap_append

theorem utf8_cons (char : Char) (later : List Char) :
    utf8 (char :: later) = String.utf8EncodeChar char ++ utf8 later :=
  List.flatMap_cons

theorem newline_mem_utf8EncodeChar
    {char : Char}
    (present : newline ∈ String.utf8EncodeChar char) :
    char = '\n' := by
  have value : ∀ number : Nat, newline = UInt8.ofNat number →
      number % 256 = 10 := by
    intro number same
    have := congrArg UInt8.toNat same
    rw [UInt8.toNat_ofNat'] at this
    exact this.symm
  have ten : char.val.toNat = 10 := by
    unfold String.utf8EncodeChar at present
    dsimp only at present
    split at present
    · have low := value _ (List.mem_singleton.mp present)
      omega
    -- The bytes of a longer character are all from 0x80 on.
    split at present
    · rcases List.mem_cons.mp present with same | present
      · have low := value _ same
        omega
      · have low := value _ (List.mem_singleton.mp present)
        omega
    split at present
    all_goals
      simp only [List.mem_cons, List.not_mem_nil, or_false] at present
    · rcases present with same | same | same <;> have low := value _ same <;>
        omega
    · rcases present with same | same | same | same <;>
        have low := value _ same <;> omega
  exact Char.ext (UInt32.toNat_inj.mp ten)

theorem lossyChars_utf8
    {chars : List Char}
    {most : Nat}
    (enough : (utf8 chars).length ≤ most) :
    lossyChars most (utf8 chars) = chars := by
  induction chars generalizing most with
  | nil =>
      cases most <;> rfl
  | cons char later inductionHypothesis =>
      have size := char.utf8Size_pos
      rw [utf8_cons, List.length_append, String.length_utf8EncodeChar]
        at enough
      obtain ⟨most, rfl⟩ : ∃ fewer, most = fewer + 1 :=
        Nat.exists_eq_add_one.mpr (by omega)
      have decoded :
          (utf8 (char :: later)).toByteArray.utf8DecodeChar? 0 = some char := by
        rw [utf8_cons, List.toByteArray_append, ← List.utf8Encode_singleton]
        exact List.utf8DecodeChar?_utf8Encode_singleton_append
      have rest : (utf8 (char :: later)).drop char.utf8Size = utf8 later := by
        rw [utf8_cons, ← String.length_utf8EncodeChar, List.drop_left]
      have nonempty : utf8 (char :: later) ≠ [] := by
        rw [utf8_cons]
        simp [String.utf8EncodeChar_ne_nil]
      obtain ⟨first, bytes, cut⟩ := List.exists_cons_of_ne_nil nonempty
      rw [cut] at decoded rest ⊢
      simp only [lossyChars, decoded, rest]
      rw [inductionHypothesis (by omega)]

/-- `from_utf8_lossy` gives back what valid UTF-8 encodes. -/
theorem fromUtf8Lossy_utf8 (chars : List Char) :
    fromUtf8Lossy (utf8 chars) = String.ofList chars := by
  rw [fromUtf8Lossy, lossyChars_utf8 le_rfl]

/-- Why a `read` failed, as far as the readers look. -/
inductive ErrorKind where
  | wouldBlock
  | other
  deriving Repr, DecidableEq

/-- What a `read` returns before the end of the stream. -/
inductive Read where
  | some (tmp : Bytes) (read : tmp ≠ [])
  | error (kind : ErrorKind)

def Read.bytes : Read → Bytes
  | .some tmp _ => tmp
  | .error _ => []

inductive Error where
  | disconnected
  | tcpStream (kind : ErrorKind)
  deriving Repr, DecidableEq

/-- A stream by what its reads will return, the mode it is in, and the buffer
of its readers; after the last read the stream has ended. -/
structure Reader where
  reads : List Read
  nonblocking : Bool
  buf : Bytes

def takeLine (buf : Bytes) : Option (String × Bytes) :=
  (Lines.takeLine newline buf).map fun (line, rest) => (fromUtf8Lossy line, rest)

namespace Reader

def tryReadLoop :
    List Read → Bytes → Except Error (Option String) × List Read × Bytes
  | [], buf => (.error .disconnected, [], buf)
  | .some tmp _ :: later, buf =>
      match takeLine (buf ++ tmp) with
      | some (line, rest) => (.ok (some line), later, rest)
      | none => tryReadLoop later (buf ++ tmp)
  | .error .wouldBlock :: later, buf => (.ok none, later, buf)
  | .error .other :: later, buf => (.error (.tcpStream .other), later, buf)

def tryReadLine (reader : Reader) : Except Error (Option String) × Reader :=
  match takeLine reader.buf with
  | some (line, rest) => (.ok (some line), { reader with buf := rest })
  | none =>
      let (result, reads, buf) := tryReadLoop reader.reads reader.buf
      (result, ⟨reads, false, buf⟩)

def readLoop :
    List Read → Bytes → Except Error String × List Read × Bytes
  | later, buf =>
      match takeLine buf with
      | some (line, rest) => (.ok line, later, rest)
      | none =>
          match later with
          | [] =>
              if buf ≠ [] then (.ok (fromUtf8Lossy buf), [], [])
              else (.error .disconnected, [], buf)
          | .some tmp _ :: later => readLoop later (buf ++ tmp)
          | .error kind :: later => (.error (.tcpStream kind), later, buf)

def readLine (reader : Reader) : Except Error String × Reader :=
  let (result, reads, buf) := readLoop reader.reads reader.buf
  (result, ⟨reads, false, buf⟩)

end Reader

inductive Call where
  | tryReadLine
  | readLine
  deriving Repr, DecidableEq

def Reader.call (reader : Reader) : Call → Except Error (Option String) × Reader
  | .tryReadLine => reader.tryReadLine
  | .readLine =>
      let (result, reader) := reader.readLine
      (result.map some, reader)

def Reader.calls (reader : Reader) :
    List Call → List (Call × Except Error (Option String)) × Reader
  | [] => ([], reader)
  | call :: later =>
      let (result, next) := reader.call call
      let (results, last) := next.calls later
      ((call, result) :: results, last)

/-- The line a call returned, if it returned one. -/
def lineOf : Except Error (Option String) → Option String
  | .ok line => line
  | .error _ => none

/-- The lines some calls returned. -/
def linesOf (results : List (Call × Except Error (Option String))) :
    List String :=
  results.filterMap (lineOf ·.2)

/-- What the stream has yet to yield. -/
def Reader.unread (reader : Reader) : Bytes :=
  reader.reads.flatMap Read.bytes

/-- What was not returned yet. -/
def Reader.pending (reader : Reader) : Bytes :=
  reader.buf ++ reader.unread

/-- What one call does to what is pending. -/
inductive Takes (before after : Reader) :
    Call → Except Error (Option String) → Prop where
  /-- It takes the first line. -/
  | line
      {call : Call}
      {body : Bytes}
      (clean : newline ∉ body)
      (cut : before.pending = body ++ newline :: after.pending) :
      Takes before after call (.ok (some (fromUtf8Lossy (body ++ [newline]))))
  /-- `read_line` takes what the stream ends with. -/
  | final
      {body : Bytes}
      (clean : newline ∉ body)
      (nonempty : body ≠ [])
      (all : before.pending = body)
      (drained : after.pending = []) :
      Takes before after .readLine (.ok (some (fromUtf8Lossy body)))
  /-- It returns no line, and leaves none in the buffer. -/
  | nothing
      {call : Call}
      {result : Except Error (Option String)}
      (none : lineOf result = none)
      (kept : after.pending = before.pending)
      (clean : newline ∉ after.buf)
      (ended :
        result = .error .disconnected →
          after.unread = [] ∧ (call = .readLine → after.buf = [])) :
      Takes before after call result

theorem takeLine_eq_some
    {buf rest : Bytes}
    {line : String}
    (taken : takeLine buf = some (line, rest)) :
    ∃ body, line = fromUtf8Lossy (body ++ [newline]) ∧ newline ∉ body ∧
      buf = body ++ newline :: rest := by
  obtain ⟨⟨bytes, left⟩, found, same⟩ := Option.map_eq_some_iff.mp taken
  cases same
  obtain ⟨body, rfl, clean, cut⟩ := Lines.takeLine_eq_some found
  exact ⟨body, rfl, clean, cut⟩

theorem takeLine_eq_none
    {buf : Bytes}
    (none : takeLine buf = none) :
    newline ∉ buf :=
  Lines.takeLine_eq_none_iff.mp (Option.map_eq_none_iff.mp none)

namespace Takes

variable {before other after : Reader} {call : Call}
variable {result : Except Error (Option String)}

theorem of_pending
    (takes : Takes other after call result)
    (same : before.pending = other.pending) :
    Takes before after call result := by
  cases takes with
  | line clean cut =>
      exact .line clean (same.trans cut)
  | final clean nonempty all drained =>
      exact .final clean nonempty (same.trans all) drained
  | nothing none kept clean ended =>
      exact .nothing none (kept.trans same.symm) clean ended

theorem of_takeLine
    {reads : List Read}
    {mode mode' : Bool}
    {buf rest : Bytes}
    {line : String}
    (taken : takeLine buf = some (line, rest)) :
    Takes ⟨reads, mode, buf⟩ ⟨reads, mode', rest⟩ call (.ok (some line)) := by
  obtain ⟨body, rfl, clean, rfl⟩ := takeLine_eq_some taken
  exact .line clean (List.append_assoc ..)

end Takes

theorem tryReadLoop_takes
    (reads : List Read)
    (mode : Bool)
    {buf : Bytes}
    (clean : newline ∉ buf) :
    Takes ⟨reads, mode, buf⟩
      ⟨(Reader.tryReadLoop reads buf).2.1, false,
        (Reader.tryReadLoop reads buf).2.2⟩
      .tryReadLine (Reader.tryReadLoop reads buf).1 := by
  induction reads generalizing buf with
  | nil =>
      exact .nothing rfl rfl clean fun _ => ⟨rfl, nofun⟩
  | cons read later inductionHypothesis =>
      cases read with
      | error kind =>
          cases kind with
          | wouldBlock | other =>
              exact .nothing rfl rfl clean nofun
      | some tmp read =>
          rw [Reader.tryReadLoop]
          cases taken : takeLine (buf ++ tmp) with
          | some cut =>
              have takes :
                  Takes ⟨later, mode, buf ++ tmp⟩ ⟨later, false, cut.2⟩
                    .tryReadLine (.ok (some cut.1)) :=
                Takes.of_takeLine taken
              exact takes.of_pending (List.append_assoc ..).symm
          | none =>
              exact (inductionHypothesis (takeLine_eq_none taken)).of_pending
                (List.append_assoc ..).symm

theorem readLoop_takes
    (reads : List Read)
    (mode : Bool)
    (buf : Bytes) :
    Takes ⟨reads, mode, buf⟩
      ⟨(Reader.readLoop reads buf).2.1, false, (Reader.readLoop reads buf).2.2⟩
      .readLine ((Reader.readLoop reads buf).1.map some) := by
  induction reads generalizing buf with
  | nil =>
      rw [Reader.readLoop]
      cases taken : takeLine buf with
      | some cut =>
          exact Takes.of_takeLine taken
      | none =>
          have clean := takeLine_eq_none taken
          by_cases nonempty : buf ≠ []
          · simp only [if_pos nonempty]
            exact .final clean nonempty (List.append_nil _) rfl
          · simp only [if_neg nonempty]
            exact .nothing rfl rfl clean
              fun _ => ⟨rfl, fun _ => not_not.mp nonempty⟩
  | cons read later inductionHypothesis =>
      unfold Reader.readLoop
      cases taken : takeLine buf with
      | some cut =>
          exact Takes.of_takeLine taken
      | none =>
          cases read with
          | error kind =>
              exact .nothing rfl rfl (takeLine_eq_none taken) nofun
          | some tmp read =>
              exact (inductionHypothesis (buf ++ tmp)).of_pending
                (List.append_assoc ..).symm

theorem call_takes
    (reader : Reader)
    (call : Call) :
    Takes reader (reader.call call).2 call (reader.call call).1 := by
  cases call with
  | readLine =>
      exact readLoop_takes reader.reads reader.nonblocking reader.buf
  | tryReadLine =>
      rw [Reader.call, Reader.tryReadLine]
      cases taken : takeLine reader.buf with
      | some cut =>
          exact Takes.of_takeLine taken
      | none =>
          exact tryReadLoop_takes reader.reads reader.nonblocking
            (takeLine_eq_none taken)

/-- The first newline of some bytes is that of the characters they encode. -/
theorem exists_line_of_utf8
    {chars : List Char}
    {body rest : Bytes}
    (clean : newline ∉ body)
    (cut : utf8 chars = body ++ newline :: rest) :
    ∃ front back, chars = front ++ '\n' :: back ∧ '\n' ∉ front ∧
      utf8 (front ++ ['\n']) = body ++ [newline] ∧ utf8 back = rest := by
  induction chars generalizing body with
  | nil =>
      cases body <;> cases cut
  | cons char later inductionHypothesis =>
      rw [utf8_cons] at cut
      by_cases same : char = '\n'
      · subst same
        have one : String.utf8EncodeChar '\n' = [newline] := by decide
        rw [one] at cut
        cases body with
        | nil =>
            exact ⟨[], later, rfl, List.not_mem_nil, by decide,
              (List.cons.inj cut).2⟩
        | cons first body =>
            obtain ⟨rfl, _⟩ := List.cons.inj cut
            exact absurd List.mem_cons_self clean
      · have free : newline ∉ String.utf8EncodeChar char :=
          fun present => same (newline_mem_utf8EncodeChar present)
        rcases List.append_eq_append_iff.mp cut with
          ⟨more, rfl, after⟩ | ⟨more, whole, after⟩
        · rw [List.mem_append, not_or] at clean
          obtain ⟨front, back, rfl, clear, encoded, left⟩ :=
            inductionHypothesis clean.2 after
          refine ⟨char :: front, back, rfl, ?_, ?_, left⟩
          · rw [List.mem_cons, not_or]
            exact ⟨Ne.symm same, clear⟩
          · rw [List.cons_append, utf8_cons, encoded, List.append_assoc]
        · cases more with
          | nil =>
              rw [List.append_nil] at whole
              obtain ⟨front, back, rfl, clear, encoded, left⟩ :=
                @inductionHypothesis [] List.not_mem_nil after.symm
              refine ⟨char :: front, back, rfl, ?_, ?_, left⟩
              · rw [List.mem_cons, not_or]
                exact ⟨Ne.symm same, clear⟩
              · rw [List.cons_append, utf8_cons, encoded, whole]
                rfl
          | cons byte more =>
              obtain ⟨rfl, _⟩ := List.cons.inj after
              rw [whole] at free
              exact absurd
                (List.mem_append_right body List.mem_cons_self) free

theorem newline_mem_utf8 {chars : List Char} :
    newline ∈ utf8 chars ↔ '\n' ∈ chars := by
  rw [utf8, List.mem_flatMap]
  constructor
  · rintro ⟨char, present, encoded⟩
    rw [← newline_mem_utf8EncodeChar encoded]
    exact present
  · intro present
    exact ⟨'\n', present, by decide⟩

def textLines (text : List Char) : List String :=
  (Lines.split '\n' text).1.map String.ofList

/-- What a text ends with, beyond its last line. -/
def textEnd (text : List Char) : String :=
  String.ofList (Lines.split '\n' text).2

/--
The results of some calls stand for the text up to what is left of it: the
lines come in order, and only once nothing is left may `read_line` have
returned what the text ends with.
-/
structure Follows
    (text : List Char)
    (results : List (Call × Except Error (Option String)))
    (left : List Char) : Prop where
  whole : text = (linesOf results).flatMap String.toList ++ left
  lines :
    textLines text = linesOf results ++ textLines left ∧
        textEnd text = textEnd left ∨
      linesOf results = textLines text ++ [textEnd text] ∧
        textEnd text ≠ "" ∧ left = []
  waited :
    ∀ line, (.tryReadLine, .ok (some line)) ∈ results →
      line ∈ textLines text

variable {text left : List Char}
variable {results : List (Call × Except Error (Option String))}

theorem linesOf_append_line (call : Call) (line : String) :
    linesOf (results ++ [(call, .ok (some line))]) =
      linesOf results ++ [line] :=
  List.filterMap_append

/-- One more call goes on where the calls before it stopped. -/
theorem Follows.takes
    (follows : Follows text results left)
    {before after : Reader}
    (holds : before.pending = utf8 left)
    {call : Call}
    {result : Except Error (Option String)}
    (takes : Takes before after call result) :
    ∃ left', Follows text (results ++ [(call, result)]) left' ∧
      after.pending = utf8 left' := by
  obtain ⟨whole, lines, waited⟩ := follows
  cases takes with
  | line clean cut =>
      rw [holds] at cut
      obtain ⟨front, back, rfl, clear, encoded, rest⟩ :=
        exists_line_of_utf8 clean cut
      have goesOn := lines.resolve_right (by simp)
      have first :
          textLines (front ++ '\n' :: back) =
            String.ofList (front ++ ['\n']) :: textLines back := by
        rw [textLines, Lines.split_line clear]
        rfl
      have last : textEnd (front ++ '\n' :: back) = textEnd back := by
        rw [textEnd, Lines.split_line clear]
        rfl
      rw [first, last] at goesOn
      rw [← encoded, fromUtf8Lossy_utf8]
      refine ⟨back, ⟨?_, .inl ?_, ?_⟩, rest.symm⟩
      · rw [linesOf_append_line, List.flatMap_append, List.flatMap_singleton,
          String.toList_ofList, whole, List.append_assoc, List.append_assoc]
        rfl
      · rw [linesOf_append_line, List.append_assoc]
        exact goesOn
      · intro line listed
        rcases List.mem_append.mp listed with earlier | new
        · exact waited line earlier
        · cases List.mem_singleton.mp new
          rw [goesOn.1]
          exact List.mem_append_right _ List.mem_cons_self
  | final clean nonempty all drained =>
      rw [holds] at all
      subst all
      have clear : '\n' ∉ left :=
        fun present => clean (newline_mem_utf8.mpr present)
      have some : left ≠ [] := by
        rintro rfl
        exact nonempty rfl
      have goesOn := lines.resolve_right fun ended => some ended.2.2
      have none : textLines left = [] := by
        rw [textLines, Lines.split_of_not_mem clear]
        rfl
      have last : textEnd left = String.ofList left := by
        rw [textEnd, Lines.split_of_not_mem clear]
      rw [none, List.append_nil, last] at goesOn
      rw [fromUtf8Lossy_utf8]
      refine ⟨[], ⟨?_, .inr ⟨?_, ?_, rfl⟩, ?_⟩, drained⟩
      · rw [linesOf_append_line, List.flatMap_append, List.flatMap_singleton,
          String.toList_ofList, List.append_nil]
        exact whole
      · rw [linesOf_append_line, goesOn.1, goesOn.2]
      · rw [goesOn.2]
        intro empty
        exact some (String.ofList_eq_empty_iff.mp empty)
      · intro line listed
        rcases List.mem_append.mp listed with earlier | new
        · exact waited line earlier
        · cases List.mem_singleton.mp new
  | nothing none kept clean ended =>
      have same : linesOf (results ++ [(call, result)]) = linesOf results := by
        rw [linesOf, List.filterMap_append, List.filterMap_cons, none]
        exact List.append_nil _
      refine ⟨left, ⟨?_, ?_, ?_⟩, kept.trans holds⟩
      · rw [same]
        exact whole
      · rw [same]
        exact lines
      · intro line listed
        rcases List.mem_append.mp listed with earlier | new
        · exact waited line earlier
        · cases List.mem_singleton.mp new
          cases none

theorem Follows.calls
    {calls : List Call}
    {reader : Reader}
    (follows : Follows text results left)
    (holds : reader.pending = utf8 left) :
    ∃ left', Follows text (results ++ (reader.calls calls).1) left' ∧
      (reader.calls calls).2.pending = utf8 left' := by
  induction calls generalizing reader results left with
  | nil =>
      exact ⟨left, by rw [Reader.calls, List.append_nil]; exact follows, holds⟩
  | cons call later inductionHypothesis =>
      obtain ⟨middle, follows, holds⟩ :=
        follows.takes holds (call_takes reader call)
      obtain ⟨last, follows, holds⟩ := inductionHypothesis follows holds
      rw [List.append_assoc] at follows
      exact ⟨last, follows, holds⟩

/-- A read that ends inside a character, and one that would block. -/
def cutReads : List Read :=
  [.some [0x61, 10, 0xC3] (by decide), .error .wouldBlock,
    .some [0xA9] (by decide)]

end Bwk.LineReader
