import Mathlib
import Bwk.BitGroups
import Bwk.TextSearch

namespace Bwk.Bech32

/-!
# Bech32

Texts of a human-readable part, a separator and five-bit symbols, the last six
of which are a checksum.  There are two checksums, that differ in a constant.
Bytes are written as symbols, with the last symbol filled up with zeros.
-/

open BitGroups TextSearch

abbrev Text := List Char

/-- A five-bit symbol. -/
abbrev U5 := Fin 32

abbrev Bytes := List UInt8

/-- The two checksums. -/
inductive Variant where
  | bech32
  | bech32m
  deriving Repr, DecidableEq

/-- Why a text or some symbols are refused. -/
inductive Error where
  | missingSeparator
  | invalidChecksum
  | invalidLength
  | invalidChar
  | invalidPadding
  | mixedCase
  deriving Repr, DecidableEq

def charOf (symbol : U5) : Char :=
  ['q', 'p', 'z', 'r', 'y', '9', 'x', '8', 'g', 'f', '2', 't', 'v', 'd', 'w',
    '0', 's', '3', 'j', 'n', '5', '4', 'k', 'h', 'c', 'e', '6', 'm', 'u', 'a',
    '7', 'l'].get symbol

def symbolOf (character : Char) : Option U5 :=
  (List.finRange 32).find? (fun symbol => charOf symbol = character)

def lower (text : Text) : Text :=
  text.map Char.toLower

def upper (text : Text) : Text :=
  text.map Char.toUpper

/-- A text in both cases. -/
def mixed (text : Text) : Bool :=
  text.any Char.isLower && text.any Char.isUpper

def readable (character : Char) : Bool :=
  33 ≤ character.toNat && character.toNat ≤ 126

/-- Check a human-readable part. -/
def checkHrp (hrp : Text) : Except Error Unit :=
  if hrp = [] ∨ 83 < hrp.length then
    .error .invalidLength
  else if hrp.all readable = false then
    .error .invalidChar
  else if mixed hrp then
    .error .mixedCase
  else
    .ok ()

/-- The remainder with one more symbol. -/
def polymodStep (remainder value : Nat) : Nat :=
  let top := remainder >>> 25
  let shifted := (remainder % 2 ^ 25) <<< 5 ^^^ value
  ([0x3b6a57b2, 0x26508e6d, 0x1ea119fa, 0x3d4233dd, 0x2a1462b3].zipIdx).foldl
    (fun found generator =>
      if top.testBit generator.2 then found ^^^ generator.1 else found)
    shifted

/-- The remainder of some symbols. -/
def polymod (values : List Nat) : Nat :=
  values.foldl polymodStep 1

/-- The symbols that the human-readable part adds to the checksum. -/
def hrpExpand (hrp : Text) : List Nat :=
  hrp.map (fun character => character.toNat >>> 5) ++
    0 :: hrp.map (fun character => character.toNat % 32)

/-- The remainder that a variant asks for. -/
def constant : Variant → Nat
  | .bech32 => 1
  | .bech32m => 0x2bc830a3

/-- The six symbols that leave the remainder of the variant. -/
def checksum (hrp : Text) (data : List U5) (variant : Variant) : List U5 :=
  let remainder :=
    polymod (hrpExpand hrp ++ data.map Fin.val ++ [0, 0, 0, 0, 0, 0]) ^^^
      constant variant
  [25, 20, 15, 10, 5, 0].map fun place => Fin.ofNat 32 (remainder >>> place)

/-- Write symbols behind a human-readable part, in lower case. -/
def encode (hrp : Text) (data : List U5) (variant : Variant) :
    Except Error Text :=
  match checkHrp hrp with
  | .error cause => .error cause
  | .ok () =>
      .ok (lower hrp ++
        '1' :: (data ++ checksum (lower hrp) data variant).map charOf)

/-- The variant whose checksum stands behind the symbols. -/
def verify (hrp : Text) (data sum : List U5) : Option Variant :=
  if sum = checksum hrp data .bech32 then
    some .bech32
  else if sum = checksum hrp data .bech32m then
    some .bech32m
  else
    none

/-- Read a text in lower or upper case. -/
def decode (text : Text) : Except Error (Text × List U5 × Variant) :=
  match rsplitOnce '1' text with
  | none => .error .missingSeparator
  | some (rawHrp, rawData) =>
      match checkHrp rawHrp with
      | .error cause => .error cause
      | .ok () =>
          if mixed text then
            .error .mixedCase
          else
            match (lower rawData).mapM symbolOf with
            | none => .error .invalidChar
            | some symbols =>
                if symbols.length < 6 then
                  .error .invalidLength
                else
                  let data := symbols.take (symbols.length - 6)
                  match verify (lower rawHrp) data
                      (symbols.drop (symbols.length - 6)) with
                  | some variant => .ok (lower rawHrp, data, variant)
                  | none => .error .invalidChecksum

/-- Write bytes as symbols. -/
def toBase32 (bytes : Bytes) : List U5 :=
  let found := spread 8 (bytes.map UInt8.toNat)
  let count := (found.length + 4) / 5
  (gather 5 count
    (found ++ List.replicate (5 * count - found.length) false)).map
      (Fin.ofNat 32)

/-- Read symbols as bytes; what is left over is less than a symbol and zero. -/
def fromBase32 (symbols : List U5) : Except Error Bytes :=
  let found := spread 5 (symbols.map Fin.val)
  let count := found.length / 8
  let rest := found.drop (8 * count)
  if 5 ≤ rest.length ∨ rest.any id = true then
    .error .invalidPadding
  else
    .ok ((gather 8 count found).map UInt8.ofNat)

/-- A character is read as the symbol it was written for. -/
@[simp] theorem symbolOf_charOf (symbol : U5) :
    symbolOf (charOf symbol) = some symbol := by
  revert symbol
  decide +kernel

variable {character : Char} {text : Text} {hrp : Text} {digits : List Nat}
variable {symbols : List U5}

theorem charOf_of_symbolOf
    {symbol : U5}
    (read : symbolOf character = some symbol) :
    charOf symbol = character := by
  have found := List.find?_some read
  simpa using found

theorem charOf_plain (symbol : U5) :
    (charOf symbol).isUpper = false ∧ (charOf symbol).toUpper ≠ '1' ∧
      charOf symbol ≠ '1' ∧
      (charOf symbol).toUpper.toLower = charOf symbol := by
  revert symbol
  decide +kernel

theorem mapM_symbolOf (symbols : List U5) :
    (symbols.map charOf).mapM symbolOf = some symbols := by
  induction symbols with
  | nil =>
      rfl
  | cons symbol rest inductionHypothesis =>
      rw [List.map_cons, List.mapM_cons, symbolOf_charOf, inductionHypothesis]
      rfl

theorem map_charOf_of_mapM
    (read : text.mapM symbolOf = some symbols) :
    symbols.map charOf = text := by
  induction text generalizing symbols with
  | nil =>
      cases read
      rfl
  | cons character rest inductionHypothesis =>
      rw [List.mapM_cons, Option.bind_eq_bind, Option.bind_eq_some_iff]
        at read
      obtain ⟨symbol, first, later⟩ := read
      rw [Option.bind_eq_bind, Option.bind_eq_some_iff] at later
      obtain ⟨others, read, same⟩ := later
      cases same
      rw [List.map_cons, charOf_of_symbolOf first, inductionHypothesis read]

theorem lower_eq_self
    (small : text.any Char.isUpper = false) :
    lower text = text := by
  rw [List.any_eq_false] at small
  have same : text.map Char.toLower = text.map id :=
    List.map_congr_left fun character member =>
      Char.toLower_eq_of_not_isUpper (small character member)
  rw [lower, same, List.map_id]

theorem upper_lower
    (large : text.any Char.isLower = false) :
    upper (lower text) = text := by
  rw [List.any_eq_false] at large
  have same : text.map (Char.toUpper ∘ Char.toLower) = text.map id := by
    apply List.map_congr_left
    intro character member
    rw [Function.comp_apply, Char.toUpper_toLower_eq_toUpper,
      Char.toUpper_eq_of_not_isLower (large character member), id]
  rw [upper, lower, List.map_map, same, List.map_id]

/-- Lower case has no upper case character. -/
@[simp] theorem any_isUpper_lower (text : Text) :
    (lower text).any Char.isUpper = false := by
  rw [List.any_eq_false]
  intro character member
  obtain ⟨other, -, rfl⟩ := List.mem_map.mp member
  simp

/-- Upper case has no lower case character. -/
@[simp] theorem any_isLower_upper (text : Text) :
    (upper text).any Char.isLower = false := by
  rw [List.any_eq_false]
  intro character member
  obtain ⟨other, -, rfl⟩ := List.mem_map.mp member
  simp

theorem mixed_lower (text : Text) : mixed (lower text) = false := by
  rw [mixed, any_isUpper_lower, Bool.and_false]

theorem mixed_upper (text : Text) : mixed (upper text) = false := by
  rw [mixed, any_isLower_upper, Bool.false_and]

theorem lower_upper (text : Text) : lower (upper text) = lower text := by
  rw [lower, upper, List.map_map, lower]
  exact List.map_congr_left (fun character _ =>
    Char.toLower_toUpper_eq_toLower character)

theorem lower_lower (text : Text) : lower (lower text) = lower text :=
  lower_eq_self (any_isUpper_lower text)

theorem checkHrp_iff (hrp : Text) :
    checkHrp hrp = .ok () ↔
      (hrp ≠ [] ∧ hrp.length ≤ 83) ∧ hrp.all readable = true ∧
        mixed hrp = false := by
  unfold checkHrp
  split
  · rename_i long
    simp only [reduceCtorEq, false_iff]
    rintro ⟨⟨filled, short⟩, -⟩
    obtain empty | beyond := long
    · exact filled empty
    · omega
  · rename_i short
    rw [not_or, not_lt] at short
    split
    · rename_i unreadable
      simp [unreadable]
    · rename_i clear
      rw [Bool.not_eq_false] at clear
      split
      · rename_i both
        simp [both]
      · rename_i single
        simp [short, clear, single]

theorem readable_case
    (clear : readable character = true) :
    readable character.toLower = true ∧ readable character.toUpper = true := by
  have bounds : 33 ≤ character.toNat ∧ character.toNat ≤ 126 := by
    simpa [readable] using clear
  constructor
  · by_cases large : character.isUpper
    · have range : 65 ≤ character.toNat ∧ character.toNat ≤ 90 := by
        simpa [Char.isUpper, UInt32.le_iff_toNat_le] using large
      have valid : (character.toNat + 32).isValidChar := by
        left
        omega
      rw [Char.toLower_eq_of_isUpper large]
      simp only [readable, Char.toNat_ofNat, if_pos valid, Bool.and_eq_true,
        decide_eq_true_eq]
      omega
    · rw [Char.toLower_eq_of_not_isUpper large]
      exact clear
  · by_cases small : character.isLower
    · have range : 97 ≤ character.toNat ∧ character.toNat ≤ 122 := by
        simpa [Char.isLower, UInt32.le_iff_toNat_le] using small
      have valid : (character.toNat - 32).isValidChar := by
        left
        omega
      rw [Char.toUpper_eq_of_isLower small]
      simp only [readable, Char.toNat_ofNat, if_pos valid, Bool.and_eq_true,
        decide_eq_true_eq]
      omega
    · rw [Char.toUpper_eq_of_not_isLower small]
      exact clear

theorem checkHrp_case
    (passes : checkHrp hrp = .ok ()) :
    checkHrp (lower hrp) = .ok () ∧ checkHrp (upper hrp) = .ok () := by
  simp only [checkHrp_iff, List.all_eq_true] at passes ⊢
  obtain ⟨⟨filled, short⟩, clear, -⟩ := passes
  refine ⟨⟨⟨?_, ?_⟩, ?_, mixed_lower hrp⟩, ⟨?_, ?_⟩, ?_, mixed_upper hrp⟩
  · simpa [lower] using filled
  · simpa [lower] using short
  · intro character member
    obtain ⟨other, listed, rfl⟩ := List.mem_map.mp member
    exact (readable_case (clear other listed)).1
  · simpa [upper] using filled
  · simpa [upper] using short
  · intro character member
    obtain ⟨other, listed, rfl⟩ := List.mem_map.mp member
    exact (readable_case (clear other listed)).2

@[simp] theorem length_checksum
    (hrp : Text)
    (data : List U5)
    (variant : Variant) :
    (checksum hrp data variant).length = 6 := rfl

theorem checksum_ne (hrp : Text) (data : List U5) :
    checksum hrp data .bech32m ≠ checksum hrp data .bech32 := by
  intro same
  have last := congrArg (fun symbols => symbols.getLast?) same
  simp only [checksum, constant, List.map_cons, List.map_nil,
    List.getLast?_cons_cons, List.getLast?_singleton, Option.some_inj,
    Nat.shiftRight_zero] at last
  have values := congrArg Fin.val last
  simp only [Fin.val_ofNat] at values
  generalize polymod _ = remainder at values
  have split (number : Nat) :
      (remainder ^^^ number) % 2 ^ 5 =
        remainder % 2 ^ 5 ^^^ number % 2 ^ 5 := Nat.xor_mod_two_pow
  rw [show (32 : Nat) = 2 ^ 5 from rfl, split, split,
    Nat.xor_right_inj] at values
  cases values

theorem verify_checksum
    (hrp : Text)
    (data : List U5)
    (variant : Variant) :
    verify hrp data (checksum hrp data variant) = some variant := by
  cases variant with
  | bech32 =>
      rw [verify, if_pos rfl]
  | bech32m =>
      rw [verify, if_neg (checksum_ne hrp data), if_pos rfl]

theorem checksum_of_verify
    {data sum : List U5}
    {variant : Variant}
    (found : verify hrp data sum = some variant) :
    sum = checksum hrp data variant := by
  unfold verify at found
  split at found
  · cases found
    assumption
  · split at found
    · cases found
      assumption
    · cases found

theorem decode_of_parts
    {rawHrp rawData hrp : Text}
    {data : List U5}
    {variant : Variant}
    (passes : checkHrp rawHrp = .ok ())
    (noSeparator : '1' ∉ rawData)
    (single : mixed (rawHrp ++ '1' :: rawData) = false)
    (lowerHrp : lower rawHrp = hrp)
    (symbols :
      lower rawData = (data ++ checksum hrp data variant).map charOf) :
    decode (rawHrp ++ '1' :: rawData) = .ok (hrp, data, variant) := by
  have size : (data ++ checksum hrp data variant).length - 6 =
      data.length := by
    rw [List.length_append, length_checksum, Nat.add_sub_cancel]
  rw [decode, rsplitOnce_append _ noSeparator]
  dsimp only
  rw [passes]
  dsimp only
  rw [single, if_neg Bool.false_ne_true, symbols, mapM_symbolOf]
  dsimp only
  rw [if_neg (by rw [List.length_append, length_checksum]; omega), size,
    List.take_left, List.drop_left, lowerHrp, verify_checksum]

theorem decode_encode
    (passes : checkHrp hrp = .ok ())
    (small : lower hrp = hrp)
    (data : List U5)
    (variant : Variant) :
    ∃ text, encode hrp data variant = .ok text ∧ lower text = text ∧
      decode text = .ok (hrp, data, variant) ∧
      decode (upper text) = .ok (hrp, data, variant) := by
  have plain (symbol : U5) := charOf_plain symbol
  have lowerSymbols (symbols : List U5) :
      lower (symbols.map charOf) = symbols.map charOf := by
    apply lower_eq_self
    rw [List.any_eq_false]
    intro character member
    obtain ⟨symbol, -, rfl⟩ := List.mem_map.mp member
    rw [(plain symbol).1]
    exact Bool.false_ne_true
  have lowerWhole :
      lower (hrp ++ '1' ::
          (data ++ checksum hrp data variant).map charOf) =
        hrp ++ '1' :: (data ++ checksum hrp data variant).map charOf := by
    have parts :=
      congrArg₂ (fun front back => front ++ '1' :: back) small
        (lowerSymbols (data ++ checksum hrp data variant))
    simpa [lower] using parts
  refine ⟨hrp ++ '1' :: (data ++ checksum hrp data variant).map charOf,
    ?_, lowerWhole, ?_, ?_⟩
  · rw [encode, passes, small]
  · refine decode_of_parts passes ?_ ?_ small (lowerSymbols _)
    · intro member
      obtain ⟨symbol, -, same⟩ := List.mem_map.mp member
      exact (plain symbol).2.2.1 same
    · rw [← lowerWhole]
      exact mixed_lower _
  · have parts :
        upper (hrp ++ '1' ::
            (data ++ checksum hrp data variant).map charOf) =
          upper hrp ++ '1' ::
            upper ((data ++ checksum hrp data variant).map charOf) := by
      simp only [upper, List.map_append, List.map_cons]
      rfl
    rw [parts]
    refine decode_of_parts (checkHrp_case passes).2 ?_ ?_ ?_ ?_
    · intro member
      obtain ⟨character, listed, same⟩ := List.mem_map.mp member
      obtain ⟨symbol, -, rfl⟩ := List.mem_map.mp listed
      exact (plain symbol).2.1 same
    · rw [← parts]
      exact mixed_upper _
    · rw [lower_upper, small]
    · rw [lower_upper, lowerSymbols]

theorem encode_of_decode
    {text hrp : Text}
    {data : List U5}
    {variant : Variant}
    (read : decode text = .ok (hrp, data, variant)) :
    encode hrp data variant = .ok (lower text) ∧
      (text = lower text ∨ text = upper (lower text)) := by
  unfold decode at read
  split at read
  · cases read
  · rename_i rawHrp rawData split
    obtain ⟨rfl, noSeparator⟩ := of_rsplitOnce split
    split at read
    · cases read
    · rename_i passes
      split at read
      · cases read
      · rename_i single
        split at read
        · cases read
        · rename_i symbols symbolsRead
          split at read
          · cases read
          · rename_i long
            dsimp only at read
            split at read
            · rename_i found verified
              cases read
              constructor
              · rw [encode, (checkHrp_case passes).1, lower_lower,
                  ← checksum_of_verify verified, List.take_append_drop,
                  map_charOf_of_mapM symbolsRead]
                simp only [lower, List.map_append, List.map_cons]
                rfl
              · rw [Bool.not_eq_true, mixed, Bool.and_eq_false_iff] at single
                obtain large | small := single
                · exact .inr (upper_lower large).symm
                · exact .inl (lower_eq_self small).symm
            · cases read

theorem val_ofNat
    (fit : ∀ digit ∈ digits, digit < 2 ^ 5) :
    (digits.map (Fin.ofNat 32)).map Fin.val = digits := by
  rw [List.map_map]
  have same : digits.map (Fin.val ∘ Fin.ofNat 32) = digits.map id :=
    List.map_congr_left fun digit member =>
      Nat.mod_eq_of_lt (fit digit member)
  rw [same, List.map_id]

theorem toNat_ofNat
    (fit : ∀ digit ∈ digits, digit < 2 ^ 8) :
    (digits.map UInt8.ofNat).map UInt8.toNat = digits := by
  rw [List.map_map]
  have same : digits.map (UInt8.toNat ∘ UInt8.ofNat) = digits.map id := by
    apply List.map_congr_left
    intro digit member
    rw [Function.comp_apply, UInt8.toNat_ofNat', id,
      Nat.mod_eq_of_lt (fit digit member)]
  rw [same, List.map_id]

theorem ofNat_val (symbols : List U5) :
    (symbols.map Fin.val).map (Fin.ofNat 32) = symbols := by
  rw [List.map_map]
  have same : symbols.map (Fin.ofNat 32 ∘ Fin.val) = symbols.map id :=
    List.map_congr_left fun symbol _ =>
      Fin.ext (Nat.mod_eq_of_lt symbol.isLt)
  rw [same, List.map_id]

theorem ofNat_toNat (bytes : Bytes) :
    (bytes.map UInt8.toNat).map UInt8.ofNat = bytes := by
  rw [List.map_map]
  have same : bytes.map (UInt8.ofNat ∘ UInt8.toNat) = bytes.map id :=
    List.map_congr_left fun byte _ => UInt8.ofNat_toNat
  rw [same, List.map_id]

theorem length_spread_symbols (symbols : List U5) :
    (spread 5 (symbols.map Fin.val)).length = 5 * symbols.length := by
  rw [length_spread, List.length_map]

theorem length_spread_bytes (bytes : Bytes) :
    (spread 8 (bytes.map UInt8.toNat)).length = 8 * bytes.length := by
  rw [length_spread, List.length_map]

theorem length_toBase32 (bytes : Bytes) :
    (toBase32 bytes).length = (8 * bytes.length + 4) / 5 := by
  rw [toBase32, List.length_map, length_gather, length_spread_bytes]

theorem spread_toBase32 (bytes : Bytes) :
    spread 5 ((toBase32 bytes).map Fin.val) =
      spread 8 (bytes.map UInt8.toNat) ++
        List.replicate
          (5 * ((8 * bytes.length + 4) / 5) - 8 * bytes.length) false := by
  rw [toBase32, val_ofNat (fun digit member => gather_lt member),
    length_spread_bytes]
  have whole :
      (spread 8 (bytes.map UInt8.toNat) ++
        List.replicate
          (5 * ((8 * bytes.length + 4) / 5) - 8 * bytes.length)
            false).length = 5 * ((8 * bytes.length + 4) / 5) := by
    rw [List.length_append, length_spread_bytes, List.length_replicate]
    omega
  rw [spread_gather (le_of_eq whole.symm)]
  exact List.take_of_length_le (le_of_eq whole)

theorem fromBase32_toBase32 (bytes : Bytes) :
    fromBase32 (toBase32 bytes) = .ok bytes := by
  have size :
      (spread 8 (bytes.map UInt8.toNat) ++
        List.replicate
          (5 * ((8 * bytes.length + 4) / 5) - 8 * bytes.length)
            false).length / 8 = bytes.length := by
    rw [List.length_append, length_spread_bytes, List.length_replicate]
    omega
  rw [fromBase32, spread_toBase32, size, 
    List.drop_left' (length_spread_bytes bytes), if_neg]
  · have gathered :
        gather 8 (bytes.map UInt8.toNat).length
            (spread 8 (bytes.map UInt8.toNat) ++
              List.replicate
                (5 * ((8 * bytes.length + 4) / 5) - 8 * bytes.length)
                false) =
          bytes.map UInt8.toNat := by
      apply gather_spread
      intro digit member
      obtain ⟨byte, -, rfl⟩ := List.mem_map.mp member
      exact byte.toNat_lt
    rw [List.length_map] at gathered
    rw [gathered, ofNat_toNat]
  · rw [List.length_replicate, not_or]
    refine ⟨by omega, ?_⟩
    simp

theorem toBase32_of_fromBase32
    {bytes : Bytes}
    (read : fromBase32 symbols = .ok bytes) :
    toBase32 bytes = symbols := by
  unfold fromBase32 at read
  dsimp only at read
  split at read
  · cases read
  · rename_i padding
    cases read
    rw [not_or, not_le, List.length_drop, length_spread_symbols] at padding
    obtain ⟨short, zeros⟩ := padding
    have digits :
        ((gather 8 ((spread 5 (symbols.map Fin.val)).length / 8)
          (spread 5 (symbols.map Fin.val))).map UInt8.ofNat).map
            UInt8.toNat =
          gather 8 ((spread 5 (symbols.map Fin.val)).length / 8)
            (spread 5 (symbols.map Fin.val)) :=
      toNat_ofNat (fun digit member => gather_lt member)
    rw [toBase32, digits, spread_gather (Nat.mul_div_le _ 8),
      length_spread_symbols]
    have left :
        ((spread 5 (symbols.map Fin.val)).take
          (8 * (5 * symbols.length / 8))).length =
            8 * (5 * symbols.length / 8) := by
      rw [List.length_take, length_spread_symbols]
      omega
    have count :
        (8 * (5 * symbols.length / 8) + 4) / 5 = symbols.length := by
      omega
    have filled :
        List.replicate (5 * symbols.length - 8 * (5 * symbols.length / 8))
            false =
          (spread 5 (symbols.map Fin.val)).drop
            (8 * (5 * symbols.length / 8)) := by
      symm
      rw [List.eq_replicate_iff, List.length_drop, length_spread_symbols]
      refine ⟨rfl, ?_⟩
      intro bit member
      rw [Bool.not_eq_true, List.any_eq_false] at zeros
      simpa using zeros bit member
    rw [left, count, filled, List.take_append_drop]
    have gathered :
        gather 5 (symbols.map Fin.val).length
            (spread 5 (symbols.map Fin.val) ++ []) =
          symbols.map Fin.val := by
      apply gather_spread
      intro digit member
      obtain ⟨symbol, -, rfl⟩ := List.mem_map.mp member
      exact symbol.isLt
    rw [List.append_nil, List.length_map] at gathered
    rw [gathered, ofNat_val]

end Bwk.Bech32
