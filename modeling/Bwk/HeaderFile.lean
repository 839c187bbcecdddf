import Bwk.FixedRecords
import Bwk.HeaderChain
import Bwk.RamStore

namespace Bwk

/-!
# The binary header file

`persist/src/backend/headers.rs`: magic, lowest stored height, and one record
per height from there on.  A write goes one of three ways, and each of them is
spelled out on the bytes of the file.  The file system itself is taken to
work: a read returns what is stored and a write stores what it is given.
-/

namespace HeaderFile

open FixedRecords

/-- What a file or a row holds. -/
abbrev Bytes := List UInt8

/-- How working on the file ends early: with an `Err`, or with a panic. -/
inductive FileAbort where
  | error (reason : PersistError)
  | panic
  deriving Repr, DecidableEq

/-- Code working on the cache file; `none` is a file that is not there. -/
abbrev FileM :=
  EStateM FileAbort (Option Bytes)

/-- `BWKH`. -/
def cacheMagic : Bytes := [66, 87, 75, 72]

/-- Bytes before the first record. -/
def cachePrefixLen : Nat := 8

/-- `u32::to_le_bytes`. -/
def toLeBytes (value : Nat) : Bytes :=
  [UInt8.ofNat value, UInt8.ofNat (value / 256),
    UInt8.ofNat (value / 65536), UInt8.ofNat (value / 16777216)]

/-- `u32::from_le_bytes`. -/
def fromLeBytes : Bytes → Nat
  | [first, second, third, fourth] =>
      first.toNat + 256 * second.toNat + 65536 * third.toNat +
        16777216 * fourth.toNat
  | _ => 0

/-- Checked addition of heights. -/
def addHeights (left right : Nat) : FileM Nat :=
  if left + right ≤ u32Max then pure (left + right) else throw .panic

/-- `str::parse::<u32>`: an optional plus sign and decimal digits. -/
def parseHeight (key : String) : Option Nat :=
  let digits :=
    match key.toList with
    | '+' :: digits => digits
    | digits => digits
  if digits ≠ [] ∧ digits.all Char.isDigit ∧
      Nat.ofDigitChars 10 digits 0 ≤ u32Max then
    some (Nat.ofDigitChars 10 digits 0)
  else
    none

/-- The height a row key names. -/
def parseKey (key : String) : FileM Nat :=
  match parseHeight key with
  | some height => pure height
  | none => throw (.error .io)

/-- Number the records of the body; the index wraps like a `u32`. -/
def collectRows (minStored : Nat) :
    Nat → List Bytes → HeaderMap Bytes → FileM (HeaderMap Bytes)
  | _, [], out => pure out
  | index, chunk :: rest, out => do
      let height ← addHeights minStored (index % (u32Max + 1))
      collectRows minStored (index + 1) rest (out.insert height chunk)

/-- Drop a file that is not a cache; it counts as empty. -/
def wipe : FileM (HeaderMap Bytes) := do
  set (none : Option Bytes)
  pure ∅

/-- The rows stored in the file. -/
def loadMap (recordSize : Nat) : FileM (HeaderMap Bytes) := do
  match ← get with
  | none => pure ∅
  | some bytes =>
      if bytes.length < cachePrefixLen ∨ bytes.take 4 ≠ cacheMagic then
        wipe
      else
        let minStored := fromLeBytes ((bytes.drop 4).take 4)
        let body := bytes.drop cachePrefixLen
        if body.length % recordSize ≠ 0 then
          wipe
        else
          collectRows minStored 0
            (chunksExact recordSize (body.length / recordSize) body) ∅

/-- The file that holds `records` from height `minStored` on. -/
def fileOf (minStored : Nat) (records : List Bytes) : Bytes :=
  cacheMagic ++ toLeBytes minStored ++ records.flatten

/-- Write the whole file, unless a record has the wrong length. -/
def writeRecords
    (recordSize minStored : Nat)
    (records : List Bytes) :
    FileM Unit :=
  if records.all (fun raw => raw.length = recordSize) then
    set (some (fileOf minStored records))
  else
    throw (.error .io)

/-- Rewrite the file; its heights must be contiguous. -/
def writeMap (recordSize : Nat) (rows : HeaderMap Bytes) : FileM Unit :=
  let minStored := rows.firstKey?.getD 0
  match rows.lastKey? with
  | some maxStored =>
      if maxStored - minStored + 1 ≠ rows.size then
        throw (.error .io)
      else
        writeRecords recordSize minStored (rows.toList.map Prod.snd)
  | none => writeRecords recordSize minStored (rows.toList.map Prod.snd)

/-- `File::set_len`. -/
def setLen (length : Nat) (bytes : Bytes) : Bytes :=
  bytes.take length ++ List.replicate (length - bytes.length) 0

/-- Cut the file after an append; a write in place keeps its length. -/
def resize (appended : Bool) (length : Nat) : FileM Unit :=
  if appended then modify (Option.map (setLen length)) else pure ()

def writeInPlace
    (recordSize minStored maxStored height : Nat)
    (bytes : Bytes) :
    FileM Unit := do
  let offset := cachePrefixLen + (height - minStored) * recordSize
  modify (Option.map (fun stored => overwrite stored offset bytes))
  let count ← addHeights (height - minStored) 1
  resize (height = saturatingSucc maxStored)
    (cachePrefixLen + count * recordSize)

/-- Store one row, in place where the file has room for it. -/
def putRowPositional
    (recordSize : Nat)
    (key : String)
    (bytes : Bytes) :
    FileM Unit :=
  if bytes.length ≠ recordSize then
    throw (.error .io)
  else do
    let height ← parseKey key
    let rows ← loadMap recordSize
    match rows.firstKey? with
    | none =>
        writeMap recordSize ((∅ : HeaderMap Bytes).insert height bytes)
    | some minStored =>
        let maxStored := rows.lastKey?.getD minStored
        if height < minStored ∨ height > saturatingSucc maxStored then
          writeMap recordSize (rows.insert height bytes)
        else
          writeInPlace recordSize minStored maxStored height bytes

def removeKeys :
    HeaderMap Bytes → List String → FileM (HeaderMap Bytes)
  | rows, [] => pure rows
  | rows, key :: rest => do
      let height ← parseKey key
      removeKeys (rows.erase height) rest

/-- Store the listed rows, each of which must have the right length. -/
def insertKeys (recordSize : Nat) :
    HeaderMap Bytes → List (String × Bytes) → FileM (HeaderMap Bytes)
  | rows, [] => pure rows
  | rows, (key, bytes) :: rest =>
      if bytes.length ≠ recordSize then
        throw (.error .io)
      else do
        let height ← parseKey key
        insertKeys recordSize (rows.insert height bytes) rest

/-- Load the rows, change them and write them back. -/
def rewriteBatch
    (recordSize : Nat)
    (inserts : List (String × Bytes))
    (removed : List String) :
    FileM Unit := do
  let rows ← loadMap recordSize
  let kept ← removeKeys rows removed
  let stored ← insertKeys recordSize kept inserts
  writeMap recordSize stored

def getRow (recordSize : Nat) (key : String) : FileM (Option Bytes) := do
  let height ← parseKey key
  let rows ← loadMap recordSize
  pure rows[height]?

/-- Read every row, under decimal keys. -/
def getRows (recordSize : Nat) : FileM (List (String × Bytes)) := do
  let rows ← loadMap recordSize
  pure (rows.toList.map (fun row => (toString row.1, row.2)))

def putRow (recordSize : Nat) (key : String) (bytes : Bytes) : FileM Unit :=
  putRowPositional recordSize key bytes

def deleteRow (recordSize : Nat) (key : String) : FileM Unit := do
  let height ← parseKey key
  let rows ← loadMap recordSize
  writeMap recordSize (rows.erase height)

/-- Apply a batch; a single insertion is positional. -/
def flushBatch
    (recordSize : Nat)
    (inserts : List (String × Bytes))
    (removed : List String) :
    FileM Unit :=
  match removed, inserts with
  | [], [(key, bytes)] => putRowPositional recordSize key bytes
  | _, _ => rewriteBatch recordSize inserts removed

/-- A height is read back from the key it is written under. -/
@[simp] theorem parseHeight_toString
    {height : Nat}
    (bounded : height ≤ u32Max) :
    parseHeight (toString height) = some height := by
  have plain :
      (match (Nat.toDigits 10 height) with
        | '+' :: digits => digits
        | digits => digits) = Nat.toDigits 10 height := by
    split
    · rename_i digits shape
      have digit : '+'.isDigit :=
        Nat.isDigit_of_mem_toDigits (by decide) (by decide)
          (shape ▸ List.mem_cons_self)
      cases digit
    · rfl
  have digits : (Nat.toDigits 10 height).all Char.isDigit :=
    List.all_eq_true.mpr (fun char member =>
      Nat.isDigit_of_mem_toDigits (by decide) (by decide) member)
  simp only [parseHeight, Nat.toString_eq_repr, Nat.toList_repr, plain,
    Nat.ofDigitChars_ten_toDigits]
  rw [if_pos ⟨Nat.toDigits_ne_nil, digits, bounded⟩]

/-- A `u32` is read back from its bytes. -/
@[simp] theorem fromLeBytes_toLeBytes
    {value : Nat}
    (bounded : value ≤ u32Max) :
    fromLeBytes (toLeBytes value) = value := by
  simp only [toLeBytes, fromLeBytes, UInt8.toNat_ofNat']
  simp only [u32Max] at bounded
  omega

theorem length_prefix (minStored : Nat) :
    (cacheMagic ++ toLeBytes minStored).length = cachePrefixLen :=
  rfl

end HeaderFile

end Bwk
