import Mathlib

namespace Bwk.BitBox

/-!
# The U2F frames of a BitBox

A message is sent in frames of 64 bytes.  The first one says the channel, the
command and the length of the message; those that continue it say the channel
and their number.
-/

abbrev Bytes := List UInt8

inductive Error where
  | invalidInput (text : String)
  | invalidData (text : String)
  | u2fDecode
  | read
  | panicked
  deriving Repr, DecidableEq

/-- The bytes of a number, the most significant first. -/
def bigEndian : Nat → Nat → Bytes
  | 0, _ => []
  | count + 1, value =>
      UInt8.ofNat (value / 256 ^ count) :: bigEndian count value

def readBigEndian (bytes : Bytes) : Nat :=
  bytes.foldl (fun value byte => value * 256 + byte.toNat) 0

@[simp] theorem length_bigEndian (count value : Nat) :
    (bigEndian count value).length = count := by
  induction count with
  | zero =>
      rfl
  | succ count inductionHypothesis =>
      rw [bigEndian, List.length_cons, inductionHypothesis]

theorem foldl_bigEndian (count value found : Nat) :
    (bigEndian count value).foldl
        (fun value byte => value * 256 + byte.toNat) found =
      found * 256 ^ count + value % 256 ^ count := by
  induction count generalizing found with
  | zero =>
      simp [bigEndian, Nat.mod_one]
  | succ count inductionHypothesis =>
      rw [bigEndian, List.foldl_cons, inductionHypothesis,
        UInt8.toNat_ofNat', pow_succ 256 count, Nat.mod_mul]
      ring

theorem readBigEndian_bigEndian
    {value : Nat}
    (count : Nat)
    (fits : value < 256 ^ count) :
    readBigEndian (bigEndian count value) = value := by
  rw [readBigEndian, foldl_bigEndian, Nat.zero_mul, Nat.zero_add,
    Nat.mod_eq_of_lt fits]

/-- The frames of the largest message: one, and 128 that continue it. -/
def maxLen : Nat :=
  129 * 64

structure U2fHid where
  cid : UInt32
  cmd : UInt8

variable (codec : U2fHid)

def headerInit (len : UInt16) : Bytes :=
  bigEndian 4 codec.cid.toNat ++ codec.cmd :: bigEndian 2 len.toNat

def headerCont (seq : Nat) : Bytes :=
  bigEndian 4 codec.cid.toNat ++ [UInt8.ofNat seq]

def parseHeader (buf : Bytes) : Except Error (Nat × UInt8 × Nat) :=
  if buf.length < 7 then
    .error (.invalidInput "Buffer to short to contain header (7 bytes)")
  else
    .ok (readBigEndian (buf.take 4), buf.getD 4 0,
      readBigEndian ((buf.drop 5).take 2))

/-- The length of the frames; the sum of the source has sixteen bits. -/
def getEncodedLen (len : Nat) : Except Error Nat :=
  if len < 57 then .ok 64
  else if 59 + (len - 57) ≥ 2 ^ 16 then .error .panicked
  else .ok (64 + 64 * ((59 + (len - 57) - 1) / 59))

/-- The loop of `encode`, with the room left in the buffer. -/
def encodeFrames : Nat → Nat → Bytes → Nat → Except Error Bytes
  | 0, _, _, _ => .error .panicked
  | fuel + 1, seq, message, room =>
      if message = [] then .ok []
      else if room < 5 then
        .error (.invalidInput "Buffer to short to contain header (5 bytes)")
      else
        let len := min 59 message.length
        if room - 5 < len then .error .panicked
        else if seq + 1 > 127 then
          .error (.invalidInput "More frames than allowed")
        else do
          let later ←
            encodeFrames fuel (seq + 1) (message.drop len) (room - 5 - len)
          pure (headerCont codec seq ++ message.take len ++ later)

/-- What the buffer holds after a message is written, and its length there. -/
def encode (message buf : Bytes) : Except Error (Bytes × Nat) :=
  let len := UInt16.ofNat message.length
  (getEncodedLen len.toNat).bind fun encLen =>
    if buf.length < encLen then
      .error (.invalidInput "Message won't fit in buffer")
    else
      let first := min 57 message.length
      (encodeFrames codec (message.length + 1) 0 (message.drop first)
        (buf.length - 7 - first)).map fun later =>
        let written := headerInit codec len ++ message.take first ++ later
        (written ++ buf.drop written.length, encLen)

def decodeFrames : Nat → Nat → Bytes → Except Error Bytes
  | 0, _, _ => .error .panicked
  | fuel + 1, left, buf =>
      if left = 0 then .ok []
      else
        let len := min 59 left
        if buf.length < 5 + len then .error .panicked
        else do
          let later ← decodeFrames fuel (left - len) (buf.drop (5 + len))
          pure ((buf.drop 5).take len ++ later)

/-- `none` when more bytes are needed. -/
def decode (buf : Bytes) : Except Error (Option Bytes) :=
  (parseHeader buf).bind fun (cid, cmd, len) =>
    if cid ≠ codec.cid.toNat then .error (.invalidData "Wrong CID")
    else if cmd ≠ codec.cmd then .error (.invalidData "Wrong CMD")
    else
      (getEncodedLen len).bind fun encLen =>
        if buf.length < encLen then .ok none
        else if buf.length < 7 + min 57 len then .error .panicked
        else
          (decodeFrames (len + 1) (len - min 57 len)
            (buf.drop (7 + min 57 len))).map
            (fun later => some ((buf.drop 7).take (min 57 len) ++ later))

/-- The reports that a buffer is sent in. -/
def chunks : Nat → Bytes → List Bytes
  | 0, _ => []
  | fuel + 1, bytes =>
      if bytes = [] then [] else bytes.take 64 :: chunks fuel (bytes.drop 64)

/-- The source unwraps the result of `encode`. -/
def write (message : Bytes) : Except Error (List Bytes) :=
  match encode codec message (List.replicate maxLen 0) with
  | .error _ => .error .panicked
  | .ok (buf, size) => .ok (chunks size (buf.take size))

/-- The loop of `read`, over the reports that still come. -/
def readMore (readbuf : Bytes) :
    List Bytes → Except Error (Bytes × List Bytes)
  | [] =>
      match decode codec readbuf with
      | .ok none => .error .read
      | .ok (some message) => .ok (message, [])
      | .error .panicked => .error .panicked
      | .error _ => .error .u2fDecode
  | more :: later =>
      match decode codec readbuf with
      | .ok none => readMore (readbuf ++ more) later
      | .ok (some message) => .ok (message, more :: later)
      | .error .panicked => .error .panicked
      | .error _ => .error .u2fDecode

def read : List Bytes → Except Error (Bytes × List Bytes)
  | [] => .error .read
  | readbuf :: later => readMore codec readbuf later

/-- The number of the frames that continue a message. -/
def framesOf (length : Nat) : Nat :=
  (length + 58) / 59

variable {codec}

@[simp] theorem length_headerInit (len : UInt16) :
    (headerInit codec len).length = 7 := by
  simp [headerInit]

/-- Frames that there are numbers and room for are written and read back. -/
theorem encodeFrames_ok
    (codec : U2fHid)
    (fuel seq room : Nat)
    (message : Bytes)
    (enough : message.length < fuel)
    (numbered : seq + framesOf message.length ≤ 127)
    (fits : message.length + 5 * framesOf message.length ≤ room) :
    ∃ written, encodeFrames codec fuel seq message room = .ok written ∧
      written.length = message.length + 5 * framesOf message.length ∧
      ∀ rest, decodeFrames fuel message.length (written ++ rest) =
        .ok message := by
  induction fuel generalizing seq room message with
  | zero =>
      omega
  | succ fuel inductionHypothesis =>
      rw [encodeFrames]
      by_cases empty : message = []
      · subst empty
        exact ⟨[], rfl, rfl, fun rest => rfl⟩
      · have positive := List.length_pos_of_ne_nil empty
        have next : framesOf message.length =
            framesOf (message.length - min 59 message.length) + 1 := by
          simp only [framesOf]
          omega
        rw [next] at numbered fits
        obtain ⟨later, result, size, decoded⟩ :=
          inductionHypothesis (seq + 1) (room - 5 - min 59 message.length)
            (message.drop (min 59 message.length))
            (by rw [List.length_drop]; omega)
            (by rw [List.length_drop]; omega)
            (by rw [List.length_drop]; omega)
        rw [List.length_drop] at size decoded
        rw [if_neg empty, if_neg (by omega)]
        dsimp only
        rw [if_neg (by omega), if_neg (by omega), result]
        refine ⟨_, rfl, ?_, ?_⟩
        · simp [headerCont, size, next]
          omega
        · intro rest
          rw [decodeFrames, if_neg (by omega)]
          dsimp only
          rw [if_neg (by simp [headerCont, size]; omega)]
          have header : (headerCont codec seq).length = 5 := by
            simp [headerCont]
          rw [List.append_assoc, List.append_assoc, ← List.drop_drop,
            ← header, List.drop_left,
            List.take_left' (List.length_take_of_le (by omega)),
            List.drop_left' (List.length_take_of_le (by omega)), decoded]
          exact congrArg Except.ok (List.take_append_drop _ message)

/-- Without enough numbers no frames are written. -/
theorem encodeFrames_error
    (codec : U2fHid)
    (fuel seq room : Nat)
    (message : Bytes)
    (more : 127 < seq + framesOf message.length)
    (started : seq ≤ 127) :
    ∃ error, encodeFrames codec fuel seq message room = .error error := by
  induction fuel generalizing seq room message with
  | zero =>
      exact ⟨_, rfl⟩
  | succ fuel inductionHypothesis =>
      have present : message ≠ [] := by
        rintro rfl
        simp [framesOf] at more
        omega
      rw [encodeFrames, if_neg present]
      split
      · exact ⟨_, rfl⟩
      dsimp only
      split
      · exact ⟨_, rfl⟩
      split
      · exact ⟨_, rfl⟩
      obtain ⟨error, result⟩ :=
        inductionHypothesis (seq + 1) (room - 5 - min 59 message.length)
          (message.drop (min 59 message.length))
          (by rw [List.length_drop]; simp only [framesOf] at *; omega)
          (by omega)
      exact ⟨error, by rw [result]; rfl⟩

theorem getEncodedLen_ok
    {len : Nat}
    (short : len ≤ 7550) :
    getEncodedLen len = .ok (64 + 64 * framesOf (len - 57)) := by
  rw [getEncodedLen, framesOf]
  split
  · congr 1
    omega
  · rw [if_neg (by omega)]
    congr 3
    omega

/-- What is read after a header of the codec. -/
theorem decode_header (len : UInt16) (rest : Bytes) :
    decode codec (headerInit codec len ++ rest) =
      (getEncodedLen len.toNat).bind fun encLen =>
        if 7 + rest.length < encLen then .ok none
        else if rest.length < min 57 len.toNat then .error .panicked
        else
          (decodeFrames (len.toNat + 1) (len.toNat - min 57 len.toNat)
            (rest.drop (min 57 len.toNat))).map
            (fun later => some (rest.take (min 57 len.toNat) ++ later)) := by
  have cid := readBigEndian_bigEndian 4 codec.cid.toNat_lt
  have size := readBigEndian_bigEndian 2 len.toNat_lt
  have parsed : parseHeader (headerInit codec len ++ rest) =
      .ok (codec.cid.toNat, codec.cmd, len.toNat) := by
    rw [parseHeader, if_neg (by simp), headerInit]
    simp [List.drop_append, List.drop_of_length_le, cid, size]
  rw [decode, parsed]
  simp only [Except.bind, ne_eq, not_true_eq_false, ↓reduceIte,
    List.length_append, length_headerInit, ← List.drop_drop,
    List.drop_left' (length_headerInit len)]
  simp only [Nat.add_lt_add_iff_left]

/-- A message that is not too long is written, and every part of what is
written is known to be whole or not. -/
theorem encode_ok
    (codec : U2fHid)
    (buf : Bytes)
    {message : Bytes}
    (short : message.length ≤ 7550)
    (room : 64 + 64 * framesOf (message.length - 57) ≤ buf.length) :
    ∃ rest,
      encode codec message buf =
          .ok (headerInit codec (UInt16.ofNat message.length) ++ rest,
            64 + 64 * framesOf (message.length - 57)) ∧
        7 + rest.length = buf.length ∧
        ∀ part, part <+: rest →
          decode codec
              (headerInit codec (UInt16.ofNat message.length) ++ part) =
            .ok (if 7 + part.length < 64 + 64 * framesOf (message.length - 57)
              then none else some message) := by
  have len : (UInt16.ofNat message.length).toNat = message.length := by
    rw [UInt16.toNat_ofNat']
    omega
  have frames : framesOf (message.length - min 57 message.length) =
      framesOf (message.length - 57) := by
    congr 1
    omega
  have numbered : framesOf (message.length - 57) ≤ 127 ∧
      message.length - 57 ≤ 59 * framesOf (message.length - 57) := by
    rw [framesOf]
    omega
  obtain ⟨later, result, size, decoded⟩ :=
    encodeFrames_ok codec (message.length + 1) 0
      (buf.length - 7 - min 57 message.length)
      (message.drop (min 57 message.length))
      (by rw [List.length_drop]; omega)
      (by rw [List.length_drop, frames]; omega)
      (by rw [List.length_drop, frames]; omega)
  rw [List.length_drop, frames] at size
  rw [List.length_drop] at decoded
  have first : (message.take (min 57 message.length)).length =
      min 57 message.length :=
    List.length_take_of_le (by omega)
  refine ⟨message.take (min 57 message.length) ++ later ++
    buf.drop (7 + (min 57 message.length + later.length)), ?_, ?_, ?_⟩
  · rw [encode]
    dsimp only
    rw [len, getEncodedLen_ok short]
    simp only [Except.bind, if_neg (Nat.not_lt.mpr room), result, Except.map,
      List.length_append, length_headerInit, first, List.append_assoc]
  · rw [List.length_append, List.length_append, List.length_drop, first]
    omega
  · intro part begins
    rw [decode_header, len, getEncodedLen_ok short, Except.bind]
    split
    · rfl
    · rename_i whole
      obtain ⟨tail, rfl⟩ :=
        List.prefix_of_prefix_length_le (List.prefix_append _ _) begins
          (by rw [List.length_append, first]; omega)
      rw [if_neg (by rw [List.length_append, List.length_append, first]; omega),
        List.append_assoc, List.take_left' first, List.drop_left' first,
        decoded tail]
      exact congrArg (fun read => Except.ok (some read))
        (List.take_append_drop _ message)

theorem written_of_short
    {message : Bytes}
    (short : message.length ≤ 7550) :
    ∃ reports, write codec message = .ok reports := by
  obtain ⟨rest, result, -⟩ :=
    encode_ok codec (List.replicate maxLen 0) short
      (by rw [List.length_replicate, framesOf, maxLen]; omega)
  exact ⟨_, by rw [write, result]⟩

/-- A longer message takes more than 127 frames that continue it. -/
theorem short_of_written
    {message : Bytes}
    {reports : List Bytes}
    (sent : write codec message = .ok reports) :
    message.length ≤ 7550 := by
  by_contra! long
  obtain ⟨error, result⟩ :=
    encodeFrames_error codec (message.length + 1) 0
      (maxLen - 7 - min 57 message.length)
      (message.drop (min 57 message.length))
      (by rw [List.length_drop, framesOf]; omega) (by omega)
  have failed : ∃ error, encode codec message
      (List.replicate maxLen 0) = .error error := by
    rw [encode]
    dsimp only
    cases getEncodedLen (UInt16.ofNat message.length).toNat with
    | error error =>
        exact ⟨error, rfl⟩
    | ok size =>
        simp only [Except.bind, List.length_replicate, result, Except.map]
        split <;> exact ⟨_, rfl⟩
  obtain ⟨error, failed⟩ := failed
  rw [write, failed] at sent
  contradiction

/-- A message is written exactly when it has at most 7550 bytes: the frame after
the 127th is refused also when it is the last, which there is room for. -/
theorem written_iff (codec : U2fHid) (message : Bytes) :
    (∃ reports, write codec message = .ok reports) ↔
      message.length ≤ 7550 := by
  constructor
  · rintro ⟨reports, sent⟩
    exact short_of_written sent
  · exact written_of_short

/-- The reports of some data are read up to the whole of it. -/
theorem readMore_chunks
    {data message part remaining : Bytes}
    {fuel : Nat}
    {later : List Bytes}
    (decodes : ∀ part, part <+: data → 7 ≤ part.length →
      decode codec part =
        .ok (if part.length < data.length then none else some message))
    (started : 7 ≤ part.length)
    (whole : part ++ remaining = data)
    (enough : remaining.length ≤ fuel) :
    readMore codec part (chunks fuel remaining ++ later) =
      .ok (message, later) := by
  induction fuel generalizing part remaining with
  | zero =>
      obtain rfl := List.eq_nil_of_length_eq_zero (Nat.le_zero.mp enough)
      rw [List.append_nil] at whole
      have last := decodes part (by rw [whole]) started
      rw [whole, if_neg (lt_irrefl _)] at last
      rw [whole]
      cases later <;> simp [chunks, readMore, last]
  | succ fuel inductionHypothesis =>
      rw [chunks]
      split
      · rename_i none
        subst none
        have last := inductionHypothesis started whole (Nat.zero_le _)
        cases fuel <;> exact last
      · rename_i more
        have positive := List.length_pos_of_ne_nil more
        have next := decodes part ⟨remaining, whole⟩ started
        rw [if_pos (by rw [← whole, List.length_append]; omega)] at next
        rw [List.cons_append, readMore, next]
        refine inductionHypothesis ?_ ?_ ?_
        · rw [List.length_append]
          omega
        · rw [List.append_assoc, List.take_append_drop, whole]
        · rw [List.length_drop]
          omega

/-- A message that is written is read back, and no report after it is. -/
theorem written_read
    {message : Bytes}
    {reports : List Bytes}
    (sent : write codec message = .ok reports)
    (later : List Bytes) :
    read codec (reports ++ later) = .ok (message, later) := by
  have short := short_of_written sent
  obtain ⟨rest, result, length, decoded⟩ :=
    encode_ok codec (List.replicate maxLen 0) short
      (by rw [List.length_replicate, framesOf, maxLen]; omega)
  have most : framesOf (message.length - 57) ≤ 127 := by
    rw [framesOf]
    omega
  rw [List.length_replicate, maxLen] at length
  rw [write, result, Except.ok.injEq] at sent
  subst sent
  generalize size : 64 + 64 * framesOf (message.length - 57) = count at *
  have counted : ((headerInit codec (UInt16.ofNat message.length) ++
      rest).take count).length = count := by
    refine List.length_take_of_le ?_
    rw [List.length_append, length_headerInit]
    omega
  obtain ⟨fuel, rfl⟩ : ∃ fuel, count = fuel + 1 := ⟨count - 1, by omega⟩
  rw [chunks, if_neg (List.ne_nil_of_length_pos (by omega)),
    List.cons_append, read]
  refine readMore_chunks ?_ (by rw [List.length_take]; omega)
    (List.take_append_drop _ _) (by rw [List.length_drop]; omega)
  intro part begins seven
  have within := begins.trans (List.take_prefix _ _)
  obtain ⟨tail, rfl⟩ :=
    List.prefix_of_prefix_length_le (List.prefix_append _ _) within
      (by rw [length_headerInit]; omega)
  rw [decoded tail ((List.prefix_append_right_inj _).mp within), counted,
    List.length_append, length_headerInit]

theorem written_read_report :
    read ⟨0xff00ff00, 0xc1⟩
        ([[0xff, 0, 0xff, 0, 0xc1, 0, 3, 1, 2, 3] ++ List.replicate 54 0] ++
          [[7]]) =
      .ok ([1, 2, 3], [[7]]) :=
  written_read (by decide +kernel) [[7]]

end Bwk.BitBox
