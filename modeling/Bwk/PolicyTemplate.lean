import Bwk.TextSearch
import Bwk.HwiPsbt

namespace Bwk.Hwi

/-!
# Policy templates

`extract_keys_and_template` (`hwi/src/utils.rs`) finds the extended keys of a
descriptor policy with one pass of a regular expression and then replaces each
of them everywhere by its number.
-/

open TextSearch

abbrev Text := List Char

/-- `[1-9A-HJ-NP-Za-km-z]`. -/
def isBase58 (symbol : Char) : Bool :=
  ('1' ≤ symbol && symbol ≤ '9') || ('A' ≤ symbol && symbol ≤ 'H') ||
    ('J' ≤ symbol && symbol ≤ 'N') || ('P' ≤ symbol && symbol ≤ 'Z') ||
    ('a' ≤ symbol && symbol ≤ 'k') || ('m' ≤ symbol && symbol ≤ 'z')

/-- `[xyYzZtuUvV]`. -/
def isVersion (symbol : Char) : Bool :=
  symbol ∈ ['x', 'y', 'Y', 'z', 'Z', 't', 'u', 'U', 'v', 'V']

/-- `[xyYzZtuUvV]pub[1-9A-HJ-NP-Za-km-z]{79,108}` at the front of a text. -/
def xpubLength : Matcher Char
  | version :: 'p' :: 'u' :: 'b' :: rest =>
      if isVersion version then
        if (rest.takeWhile isBase58).length < 79 then
          none
        else
          some (4 + min (rest.takeWhile isBase58).length 108)
      else
        none
  | _ => none

/-- The rest of `.+?\]` after its first character, and the key behind it: the
nearest bracket that a key follows, on the same line. -/
def originLength : Matcher Char
  | [] => none
  | symbol :: rest =>
      match if symbol = ']' then xpubLength rest else none with
      | some length => some (length + 1)
      | none =>
          if symbol = '\n' then
            none
          else
            (originLength rest).map (· + 1)

/-- `(\[.+?\])?[xyYzZtuUvV]pub[1-9A-HJ-NP-Za-km-z]{79,108}` at the front of a
text. -/
def keyLength : Matcher Char
  | '[' :: symbol :: rest =>
      if symbol = '\n' then
        none
      else
        (originLength rest).map (· + 2)
  | text => xpubLength text

/-- `pubkeys_str`: the keys of a policy, each where it is first found. -/
def keyTexts (policy : Text) : List Text :=
  (findAll keyLength policy).foldl
    (fun texts text => if text ∈ texts then texts else texts ++ [text]) []

/-- `format!("@{i}")`. -/
def slot (index : Nat) : Text :=
  '@' :: Nat.toDigits 10 index

/-- Replace the keys one after the other and parse each of them. -/
def substituteKeys {Key : Type} (fromStr : Text → Option Key) :
    Nat → List Text → Text × List Key → Except HwiError (Text × List Key)
  | _, [], result => .ok result
  | index, text :: rest, (template, pubkeys) =>
      match fromStr text with
      | none => .error .unsupportedInput
      | some pubkey =>
          substituteKeys fromStr (index + 1) rest
            (replaceAll text (slot index) template, pubkeys ++ [pubkey])

/-- `extract_keys_and_template`. -/
def extractKeysAndTemplate {Key : Type}
    (fromStr : Text → Option Key)
    (policy : Text) :
    Except HwiError (Text × List Key) :=
  match substituteKeys fromStr 0 (keyTexts policy) (policy, []) with
  | .error cause => .error cause
  | .ok (template, pubkeys) =>
      match rsplitOnce '#' template with
      | some (descriptorTemplate, _) => .ok (descriptorTemplate, pubkeys)
      | none => .ok (template, pubkeys)

/-- A character of a template, or the number of a key. -/
abbrev Symbol := Char ⊕ Nat

/-- The slot that ends here: an `@` without digits is a character. -/
def closeSlot (digits : Text) : Symbol :=
  if digits = [] then
    .inl '@'
  else
    .inr (Nat.ofDigitChars 10 digits 0)

/-- Read a template, with the digits of the slot that is open. -/
def readSlots : Option Text → Text → List Symbol
  | none, [] => []
  | some digits, [] => [closeSlot digits]
  | none, symbol :: rest =>
      if symbol = '@' then
        readSlots (some []) rest
      else
        .inl symbol :: readSlots none rest
  | some digits, symbol :: rest =>
      if symbol.isDigit then
        readSlots (some (digits ++ [symbol])) rest
      else if symbol = '@' then
        closeSlot digits :: readSlots (some []) rest
      else
        closeSlot digits :: .inl symbol :: readSlots none rest

/-- The characters and slots of a template. -/
def readTemplate (template : Text) : List Symbol :=
  readSlots none template

def symbolText : Symbol → Text
  | .inl symbol => [symbol]
  | .inr index => slot index

/-- A symbol of a template with the key in the place of its number. -/
def keyText (texts : List Text) : Symbol → Text
  | .inl symbol => [symbol]
  | .inr index => texts[index]?.getD []

def withoutChecksum (policy : Text) : Text :=
  beforeLast '#' policy

/--
What every descriptor policy is: no character of it starts a slot, no origin
is empty, what follows a key is a separator, and a checksum stands behind all
keys.
-/
structure Descriptor (policy : Text) : Prop where
  noSlot : '@' ∉ policy
  noEmptyOrigin : ¬ ['[', ']'] <:+: policy
  keysEnd :
    ∀ key ∈ findAll keyLength policy, ∀ before symbol after,
      policy = before ++ key ++ symbol :: after →
        symbol.isAlphanum = false
  checksumLast :
    ∀ key ∈ findAll keyLength policy, ∀ before after,
      policy = before ++ key ++ after → '#' ∉ before ++ key

theorem descriptor_iff (policy : Text) :
    Descriptor policy ↔
      '@' ∉ policy ∧ ¬ ['[', ']'] <:+: policy ∧
        ∀ key ∈ findAll keyLength policy,
          ∀ start ∈ List.range (policy.length + 1),
            key <+: policy.drop start →
              (policy.drop (start + key.length)).head?.all
                  (fun symbol => !symbol.isAlphanum) = true ∧
                '#' ∉ policy.take (start + key.length) := by
  constructor
  · intro descriptor
    refine ⟨descriptor.noSlot, descriptor.noEmptyOrigin, ?_⟩
    intro key member start _ ⟨after, occurs⟩
    have split : policy = policy.take start ++ key ++ after := by
      rw [List.append_assoc, occurs, List.take_append_drop]
    have behind : policy.drop (start + key.length) = after := by
      rw [← List.drop_drop, ← occurs, List.drop_left]
    have upTo :
        policy.take (start + key.length) = policy.take start ++ key := by
      rw [List.take_add, ← occurs, List.take_left]
    refine ⟨?_, upTo ▸ descriptor.checksumLast key member _ after split⟩
    rw [behind]
    cases after with
    | nil =>
        rfl
    | cons symbol rest =>
        have separates :=
          descriptor.keysEnd key member _ symbol rest split
        simp [separates]
  · rintro ⟨noSlot, noEmptyOrigin, places⟩
    have place (key : Text) (member : key ∈ findAll keyLength policy)
        (before after : Text) (split : policy = before ++ key ++ after) :
        after.head?.all (fun symbol => !symbol.isAlphanum) = true ∧
          '#' ∉ before ++ key := by
      have passed :=
        places key member before.length
          (by
            rw [List.mem_range, split]
            simp only [List.length_append]
            omega)
          ⟨after, by rw [split, List.append_assoc, List.drop_left]⟩
      rw [← List.length_append] at passed
      rw [split, List.drop_left, List.take_left] at passed
      exact passed
    exact {
      noSlot := noSlot
      noEmptyOrigin := noEmptyOrigin
      keysEnd := by
        intro key member before symbol after split
        simpa using (place key member before _ split).1
      checksumLast := by
        intro key member before after split
        exact (place key member before after split).2
    }

instance (policy : Text) : Decidable (Descriptor policy) :=
  decidable_of_iff _ (descriptor_iff policy).symm

/-- A template and its keys stand for a policy and for no other. -/
structure Inverts (policy template : Text) (texts : List Text) : Prop where
  noKey : findAll keyLength template = []
  numbered : ∀ index, .inr index ∈ readTemplate template → index < texts.length
  restores :
    (readTemplate template).flatMap (keyText texts) = withoutChecksum policy
  distinct : texts.Nodup
  used : ∀ index < texts.length, .inr index ∈ readTemplate template

/-- No key is part of one that is first found later. -/
def Separate (texts : List Text) : Prop :=
  ∀ (earlier later : Nat) (first second : Text),
    earlier < later → texts[earlier]? = some first →
      texts[later]? = some second → ¬ first <:+: second

variable {xpub : Text} {key rest : Text} {text : Text} {index : Nat}
variable {symbol : Char} {length : Nat} {symbols : List Symbol}

theorem isAlphanum_of_isBase58
    (inKey : isBase58 symbol = true) :
    symbol.isAlphanum = true := by
  simp only [isBase58, Bool.or_eq_true, Bool.and_eq_true,
    decide_eq_true_eq, Char.le_def, UInt32.le_iff_toNat_le] at inKey
  simp only [Char.isAlphanum, Char.isAlpha, Char.isUpper, Char.isLower,
    Char.isDigit, Bool.or_eq_true, Bool.and_eq_true, decide_eq_true_eq,
    ge_iff_le, UInt32.le_iff_toNat_le]
  have values :
      ('0'.val.toNat = 48 ∧ '1'.val.toNat = 49 ∧ '9'.val.toNat = 57) ∧
      ('A'.val.toNat = 65 ∧ 'H'.val.toNat = 72 ∧ 'J'.val.toNat = 74) ∧
      ('N'.val.toNat = 78 ∧ 'P'.val.toNat = 80 ∧ 'Z'.val.toNat = 90) ∧
      ('a'.val.toNat = 97 ∧ 'k'.val.toNat = 107 ∧ 'm'.val.toNat = 109) ∧
      'z'.val.toNat = 122 := by
    decide
  omega

/-- The text of an extended key without its origin. -/
structure IsXpub (xpub : Text) : Prop where
  shape :
    ∃ version run,
      xpub = version :: 'p' :: 'u' :: 'b' :: run ∧
        isVersion version = true ∧
        (∀ symbol ∈ run, isBase58 symbol = true) ∧
        79 ≤ run.length ∧ run.length ≤ 108

theorem isAlphanum_of_isVersion
    (version : isVersion symbol = true) :
    symbol.isAlphanum = true ∧ symbol.isDigit = false ∧ symbol ≠ '@' := by
  simp only [isVersion, List.mem_cons, List.not_mem_nil, or_false,
    decide_eq_true_eq] at version
  rcases version with rfl | rfl | rfl | rfl | rfl | rfl | rfl | rfl | rfl |
    rfl <;> decide

theorem IsXpub.isAlphanum
    (isXpub : IsXpub xpub)
    (member : symbol ∈ xpub) :
    symbol.isAlphanum = true := by
  obtain ⟨version, run, rfl, isVersion, inRun, -⟩ := isXpub.shape
  simp only [List.mem_cons] at member
  obtain rfl | rfl | rfl | rfl | member := member
  · exact (isAlphanum_of_isVersion isVersion).1
  · decide
  · decide
  · decide
  · exact isAlphanum_of_isBase58 (inRun symbol member)

theorem of_xpubLength
    (matched : xpubLength text = some length) :
    ∃ xpub rest, text = xpub ++ rest ∧ IsXpub xpub ∧
      length = xpub.length := by
  unfold xpubLength at matched
  split at matched
  · rename_i version rest
    split at matched
    · rename_i isVersion
      split at matched
      · cases matched
      · rename_i long
        refine ⟨version :: 'p' :: 'u' :: 'b' ::
            (rest.takeWhile isBase58).take 108,
          rest.drop (min 108 (rest.takeWhile isBase58).length), ?_, ?_, ?_⟩
        · have front :
              (rest.takeWhile isBase58).take 108 =
                rest.take (min 108 (rest.takeWhile isBase58).length) := by
            rw [← List.take_take,
              ← List.prefix_iff_eq_take.mp (List.takeWhile_prefix isBase58)]
          rw [front]
          simp
        · refine ⟨_, _, rfl, isVersion, ?_, ?_, ?_⟩
          · intro symbol member
            exact List.mem_takeWhile_imp (List.mem_of_mem_take member)
          · rw [List.length_take]
            omega
          · rw [List.length_take]
            omega
        · cases matched
          simp only [List.length_cons, List.length_take]
          omega
    · cases matched
  · cases matched

theorem xpubLength_of_stop
    (isXpub : IsXpub xpub)
    {rest : Text}
    (stop : ∀ symbol others, rest = symbol :: others →
      isBase58 symbol = false) :
    xpubLength (xpub ++ rest) = some xpub.length := by
  obtain ⟨version, run, rfl, isVersion, inRun, long, short⟩ := isXpub.shape
  have whole : (run ++ rest).takeWhile isBase58 = run := by
    cases rest with
    | nil =>
        rw [List.append_nil, List.takeWhile_eq_self_iff]
        exact inRun
    | cons symbol others =>
        rw [List.takeWhile_append_of_pos inRun,
          List.takeWhile_cons_of_neg (by simp [stop symbol others rfl]),
          List.append_nil]
  simp only [List.cons_append, xpubLength, isVersion, if_true, whole]
  rw [if_neg (by omega), min_eq_left short]
  simp only [List.length_cons, Option.some.injEq]
  omega

theorem xpubLength_isSome
    (isXpub : IsXpub xpub)
    (rest : Text) :
    (xpubLength (xpub ++ rest)).isSome := by
  obtain ⟨version, run, rfl, isVersion, inRun, long, short⟩ := isXpub.shape
  have more :
      run.length ≤ ((run ++ rest).takeWhile isBase58).length := by
    rw [List.takeWhile_append_of_pos inRun, List.length_append]
    omega
  simp only [List.cons_append, xpubLength, isVersion, if_true]
  rw [if_neg (by omega)]
  rfl

/-- Behind an origin the expression matches up to a bracket and the key that
follows it. -/
theorem of_originLength
    (matched : originLength text = some length) :
    ∃ content xpub rest,
      text = content ++ ']' :: (xpub ++ rest) ∧ '\n' ∉ content ∧
        IsXpub xpub ∧ length = content.length + 1 + xpub.length := by
  induction text generalizing length with
  | nil =>
      cases matched
  | cons symbol others inductionHypothesis =>
      rw [originLength] at matched
      split at matched
      · rename_i here closes
        split at closes
        · rename_i bracket
          obtain ⟨xpub, rest, rfl, isXpub, rfl⟩ := of_xpubLength closes
          cases matched
          exact ⟨[], xpub, rest, by rw [bracket]; rfl, by simp, isXpub,
            by simp [Nat.add_comm]⟩
        · cases closes
      · split at matched
        · cases matched
        · rename_i notLine
          obtain ⟨later, laterMatched, rfl⟩ :=
            Option.map_eq_some_iff.mp matched
          obtain ⟨content, xpub, rest, rfl, oneLine, isXpub, rfl⟩ :=
            inductionHypothesis laterMatched
          refine ⟨symbol :: content, xpub, rest, rfl, ?_, isXpub, ?_⟩
          · rw [List.mem_cons, not_or]
            exact ⟨Ne.symm notLine, oneLine⟩
          · rw [List.length_cons]
            omega

theorem originLength_le
    {content xpub rest : Text}
    (oneLine : '\n' ∉ content)
    (follows : xpubLength (xpub ++ rest) = some xpub.length) :
    ∃ length,
      originLength (content ++ ']' :: (xpub ++ rest)) = some length ∧
        length ≤ content.length + 1 + xpub.length := by
  induction content with
  | nil =>
      refine ⟨xpub.length + 1, ?_, by simp [Nat.add_comm]⟩
      rw [List.nil_append, originLength]
      simp [follows]
  | cons symbol content inductionHypothesis =>
      rw [List.mem_cons, not_or] at oneLine
      obtain ⟨length, later, bound⟩ := inductionHypothesis oneLine.2
      rw [List.cons_append, originLength]
      split
      · rename_i here closes
        refine ⟨here + 1, rfl, ?_⟩
        split at closes
        · -- The earlier key stops before the bracket.
          obtain ⟨earlier, others, split, isXpub, rfl⟩ :=
            of_xpubLength closes
          have stops : earlier.length ≤ content.length := by
            by_contra longer
            have upToBracket :
                content ++ [']'] <+: content ++ ']' :: (xpub ++ rest) :=
              ⟨xpub ++ rest, by simp⟩
            have front :=
              List.prefix_of_prefix_length_le upToBracket
                ⟨others, split.symm⟩ (by simp; omega)
            have inside : ']' ∈ earlier := front.subset (by simp)
            exact absurd (isXpub.isAlphanum inside) (by decide)
          rw [List.length_cons]
          omega
        · cases closes
      · rw [if_neg (Ne.symm oneLine.1), later]
        exact ⟨length + 1, rfl, by rw [List.length_cons]; omega⟩

theorem of_keyLength
    (matched : keyLength text = some length) :
    (∃ xpub rest, text = xpub ++ rest ∧ IsXpub xpub ∧
        length = xpub.length) ∨
      ∃ content xpub rest,
        text = '[' :: (content ++ ']' :: (xpub ++ rest)) ∧
          content ≠ [] ∧ '\n' ∉ content ∧ IsXpub xpub ∧
          length = content.length + 2 + xpub.length := by
  unfold keyLength at matched
  split at matched
  · rename_i symbol others
    split at matched
    · cases matched
    · rename_i notLine
      obtain ⟨later, laterMatched, rfl⟩ := Option.map_eq_some_iff.mp matched
      obtain ⟨content, xpub, rest, rfl, oneLine, isXpub, rfl⟩ :=
        of_originLength laterMatched
      right
      refine ⟨symbol :: content, xpub, rest, rfl, by simp, ?_, isXpub, ?_⟩
      · rw [List.mem_cons, not_or]
        exact ⟨Ne.symm notLine, oneLine⟩
      · rw [List.length_cons]
        omega
  · exact .inl (of_xpubLength matched)

theorem shape_of_match
    (matched : keyLength (key ++ rest) = some key.length) :
    IsXpub key ∨
      ∃ content xpub,
        key = '[' :: (content ++ ']' :: xpub) ∧ content ≠ [] ∧
          '\n' ∉ content ∧ IsXpub xpub := by
  obtain ⟨xpub, others, split, isXpub, same⟩ |
    ⟨content, xpub, others, split, filled, oneLine, isXpub, same⟩ :=
      of_keyLength matched
  · left
    rw [List.append_inj_left split same]
    exact isXpub
  · right
    refine ⟨content, xpub, ?_, filled, oneLine, isXpub⟩
    have regrouped :
        '[' :: (content ++ ']' :: (xpub ++ others)) =
          '[' :: (content ++ ']' :: xpub) ++ others := by simp
    rw [regrouped] at split
    refine List.append_inj_left split ?_
    simp only [List.length_cons, List.length_append]
    omega

theorem behind_bracket
    {skipped others content xpub : Text}
    (split : skipped ++ '[' :: others = '[' :: (content ++ ']' :: xpub))
    (isXpub : IsXpub xpub) :
    ∃ remaining, others = remaining ++ ']' :: xpub ∧
      remaining <:+ content := by
  cases skipped with
  | nil =>
      rw [List.nil_append, List.cons_eq_cons] at split
      exact ⟨content, split.2, List.suffix_refl content⟩
  | cons first skipped =>
      rw [List.cons_append, List.cons_eq_cons] at split
      obtain ⟨part, inContent, later⟩ | ⟨part, inSkipped, later⟩ :=
        List.append_eq_append_iff.mp split.2.symm
      · -- The bracket is behind the origin, where only the key is.
        have inXpub : '[' ∈ ']' :: xpub := by
          rw [later]
          simp
        obtain same | member := List.mem_cons.mp inXpub
        · cases same
        · exact absurd (isXpub.isAlphanum member) (by decide)
      · cases part with
        | nil =>
            rw [List.nil_append, List.cons_eq_cons] at later
            cases later.1
        | cons bracket part =>
            rw [List.cons_append, List.cons_eq_cons] at later
            exact ⟨part, later.2, ⟨skipped ++ [bracket], by
              rw [inSkipped]
              simp⟩⟩

theorem keyLength_proper : Matcher.Proper keyLength := by
  intro text length matched
  have positive {xpub : Text} (isXpub : IsXpub xpub) : 0 < xpub.length := by
    obtain ⟨version, run, rfl, -⟩ := isXpub.shape
    simp
  obtain ⟨xpub, rest, rfl, isXpub, rfl⟩ |
    ⟨content, xpub, rest, rfl, -, -, isXpub, rfl⟩ := of_keyLength matched
  · exact ⟨positive isXpub, by simp⟩
  · refine ⟨by omega, ?_⟩
    simp only [List.length_cons, List.length_append]
    omega

theorem head_of_keyLength
    (matched : keyLength text = some length) :
    ∃ first rest, text = first :: rest ∧
      first.isDigit = false ∧ first ≠ '@' := by
  obtain ⟨xpub, rest, rfl, isXpub, -⟩ | ⟨content, xpub, rest, rfl, -⟩ :=
    of_keyLength matched
  · obtain ⟨version, run, rfl, isVersion, -⟩ := isXpub.shape
    obtain ⟨-, notDigit, notAt⟩ := isAlphanum_of_isVersion isVersion
    exact ⟨version, _, rfl, notDigit, notAt⟩
  · exact ⟨'[', _, rfl, by decide, by decide⟩

theorem keyLength_isSome_of_xpub
    (isXpub : IsXpub xpub)
    (rest : Text) :
    (keyLength (xpub ++ rest)).isSome := by
  have matched := xpubLength_isSome isXpub rest
  obtain ⟨version, run, rfl, isVersion, -⟩ := isXpub.shape
  unfold keyLength
  split
  · rename_i symbol others same
    rw [List.cons_append, List.cons_eq_cons] at same
    rw [same.1] at isVersion
    cases isVersion
  · exact matched

theorem originLength_isSome
    {content tail : Text}
    (oneLine : '\n' ∉ content)
    (follows : (xpubLength tail).isSome) :
    (originLength (content ++ ']' :: tail)).isSome := by
  induction content with
  | nil =>
      obtain ⟨length, matched⟩ := Option.isSome_iff_exists.mp follows
      rw [List.nil_append, originLength, if_pos rfl, matched]
      rfl
  | cons symbol content inductionHypothesis =>
      rw [List.mem_cons, not_or] at oneLine
      rw [List.cons_append, originLength]
      split
      · rfl
      · rw [if_neg (Ne.symm oneLine.1), Option.isSome_map]
        exact inductionHypothesis oneLine.2

theorem keyLength_isSome_of_match
    (matched : keyLength (key ++ rest) = some key.length)
    (back : Text) :
    (keyLength (key ++ back)).isSome := by
  obtain isXpub | ⟨content, xpub, rfl, filled, oneLine, isXpub⟩ :=
    shape_of_match matched
  · exact keyLength_isSome_of_xpub isXpub back
  · obtain ⟨first, content, rfl⟩ := List.exists_cons_of_ne_nil filled
    rw [List.mem_cons, not_or] at oneLine
    have regrouped :
        '[' :: (first :: content ++ ']' :: xpub) ++ back =
          '[' :: first :: (content ++ ']' :: (xpub ++ back)) := by simp
    rw [regrouped, keyLength, if_neg (Ne.symm oneLine.1),
      Option.isSome_map]
    exact originLength_isSome oneLine.2 (xpubLength_isSome isXpub back)

theorem mem_slot
    (member : symbol ∈ slot index) :
    symbol = '@' ∨ symbol.isDigit = true := by
  rw [slot, List.mem_cons] at member
  obtain rfl | digit := member
  · exact .inl rfl
  · exact .inr (Nat.isDigit_of_mem_toDigits (by decide) (by decide) digit)

theorem readSlots_digits
    {digits : Text}
    (onlyDigits : ∀ symbol ∈ digits, symbol.isDigit = true)
    (collected rest : Text) :
    readSlots (some collected) (digits ++ rest) =
      readSlots (some (collected ++ digits)) rest := by
  induction digits generalizing collected with
  | nil =>
      simp
  | cons symbol digits inductionHypothesis =>
      rw [List.cons_append, readSlots,
        if_pos (onlyDigits symbol List.mem_cons_self),
        inductionHypothesis (fun other member =>
          onlyDigits other (List.mem_cons_of_mem _ member)),
        List.append_assoc]
      rfl

/-- A template no slot of which runs into a digit. -/
def Spaced (symbols : List Symbol) : Prop :=
  ∀ before index symbol after,
    symbols = before ++ .inr index :: .inl symbol :: after →
      symbol.isDigit = false

theorem readTemplate_flatMap
    (noSlot : .inl '@' ∉ symbols)
    (spaced : Spaced symbols) :
    readTemplate (symbols.flatMap symbolText) = symbols := by
  unfold readTemplate
  induction symbols with
  | nil =>
      rfl
  | cons first rest inductionHypothesis =>
      have later :
          readSlots none (rest.flatMap symbolText) = rest := by
        apply inductionHypothesis
        · exact fun member => noSlot (List.mem_cons_of_mem _ member)
        · intro before index symbol after split
          exact spaced (first :: before) index symbol after
            (by rw [split]; rfl)
      rw [List.flatMap_cons]
      cases first with
      | inl symbol =>
          have plain : symbol ≠ '@' :=
            fun same => noSlot (by rw [same]; exact List.mem_cons_self)
          rw [symbolText, List.singleton_append, readSlots, if_neg plain,
            later]
      | inr index =>
          have closed : closeSlot (Nat.toDigits 10 index) = .inr index := by
            rw [closeSlot, if_neg Nat.toDigits_ne_nil,
              Nat.ofDigitChars_ten_toDigits]
          rw [symbolText, slot, List.cons_append, readSlots, if_pos rfl,
            readSlots_digits (fun symbol member =>
              Nat.isDigit_of_mem_toDigits (by decide) (by decide) member),
            List.nil_append]
          -- What follows closes the slot.
          cases rest with
          | nil =>
              rw [List.flatMap_nil, readSlots, closed]
          | cons next others =>
              cases next with
              | inl symbol =>
                  have separates :=
                    spaced [] index symbol others rfl
                  have plain : symbol ≠ '@' := by
                    intro same
                    apply noSlot
                    rw [same]
                    simp
                  rw [List.flatMap_cons, symbolText, List.singleton_append]
                    at later ⊢
                  rw [readSlots, if_neg plain] at later
                  rw [readSlots, if_neg (by simp [separates]), if_neg plain,
                    closed, later]
              | inr other =>
                  rw [List.flatMap_cons, symbolText, slot, List.cons_append]
                    at later ⊢
                  rw [readSlots, if_pos rfl] at later
                  rw [readSlots, if_neg (by decide), if_pos rfl, closed,
                    later]

theorem prefix_of_prefix_flatMap
    (plain : '@' ∉ text)
    (front : text <+: symbols.flatMap symbolText) :
    text.map Sum.inl <+: symbols := by
  induction text generalizing symbols with
  | nil =>
      exact List.nil_prefix
  | cons first rest inductionHypothesis =>
      rw [List.mem_cons, not_or] at plain
      cases symbols with
      | nil =>
          cases List.prefix_nil.mp front
      | cons symbol others =>
          rw [List.flatMap_cons] at front
          cases symbol with
          | inl character =>
              rw [symbolText, List.singleton_append,
                List.cons_prefix_cons] at front
              rw [List.map_cons, List.cons_prefix_cons]
              exact ⟨congrArg Sum.inl front.1,
                inductionHypothesis plain.2 front.2⟩
          | inr index =>
              rw [symbolText, slot, List.cons_append,
                List.cons_prefix_cons] at front
              exact absurd front.1.symm plain.1

/-- Text in a template that starts like a key and has no `@` is made of
characters. -/
theorem infix_of_infix_flatMap
    {first : Char}
    {rest : Text}
    (plain : '@' ∉ first :: rest)
    (notDigit : first.isDigit = false)
    (inside : first :: rest <:+: symbols.flatMap symbolText) :
    (first :: rest).map Sum.inl <:+: symbols := by
  induction symbols with
  | nil =>
      cases List.infix_nil.mp inside
  | cons symbol others inductionHypothesis =>
      rw [List.infix_cons_iff]
      obtain ⟨before, after, split⟩ := inside
      rw [List.flatMap_cons, List.append_assoc] at split
      obtain ⟨shared, same, later⟩ | ⟨shared, same, later⟩ :=
        List.append_eq_append_iff.mp split
      · -- It starts in the text of the first symbol.
        cases shared with
        | nil =>
            right
            apply inductionHypothesis
            rw [List.nil_append] at later
            exact ⟨[], after, by simpa using later⟩
        | cons character shared =>
            rw [List.cons_append, List.cons_append,
              List.cons_eq_cons] at later
            obtain ⟨rfl, later⟩ := later
            have member : first ∈ symbolText symbol := by
              rw [same]
              simp
            cases symbol with
            | inl only =>
                left
                rw [symbolText] at same
                have front : first :: rest <+:
                    (Sum.inl only :: others).flatMap symbolText := by
                  have empty : before = [] ∧ shared = [] := by
                    have lengths := congrArg List.length same
                    simp only [List.length_append, List.length_cons,
                      List.length_nil] at lengths
                    exact ⟨List.eq_nil_of_length_eq_zero (by omega),
                      List.eq_nil_of_length_eq_zero (by omega)⟩
                  rw [empty.1, List.nil_append] at split
                  exact ⟨after, by simpa [symbolText] using split⟩
                exact prefix_of_prefix_flatMap plain front
            | inr index =>
                exfalso
                obtain at' | digit := mem_slot member
                · exact plain (by simp [at'])
                · rw [notDigit] at digit
                  cases digit
      · right
        apply inductionHypothesis
        exact ⟨shared, after, by rw [later]; simp⟩

theorem keyTexts_spec (policy : Text) :
    (keyTexts policy).Nodup ∧
      ∀ text, text ∈ keyTexts policy ↔ text ∈ findAll keyLength policy := by
  unfold keyTexts
  generalize findAll keyLength policy = matched
  have collected :
      ∀ texts : List Text, texts.Nodup →
        (matched.foldl (fun texts text =>
            if text ∈ texts then texts else texts ++ [text]) texts).Nodup ∧
          ∀ text, text ∈ matched.foldl (fun texts text =>
              if text ∈ texts then texts else texts ++ [text]) texts ↔
            text ∈ texts ∨ text ∈ matched := by
    induction matched with
    | nil =>
        intro texts distinct
        exact ⟨distinct, fun text => by simp⟩
    | cons first rest inductionHypothesis =>
        intro texts distinct
        rw [List.foldl_cons]
        by_cases known : first ∈ texts
        · rw [if_pos known]
          obtain ⟨nodup, members⟩ := inductionHypothesis texts distinct
          refine ⟨nodup, fun text => ?_⟩
          rw [members, List.mem_cons]
          constructor
          · rintro (old | later)
            · exact .inl old
            · exact .inr (.inr later)
          · rintro (old | rfl | later)
            · exact .inl old
            · exact .inl known
            · exact .inr later
        · rw [if_neg known]
          obtain ⟨nodup, members⟩ :=
            inductionHypothesis (texts ++ [first])
              (List.nodup_append.mpr ⟨distinct, List.nodup_singleton _,
                fun old oldMember new newMember same => known (by
                  rw [List.mem_singleton] at newMember
                  rw [← newMember, ← same]
                  exact oldMember)⟩)
          refine ⟨nodup, fun text => ?_⟩
          rw [members, List.mem_append, List.mem_singleton, List.mem_cons,
            or_assoc]
  obtain ⟨nodup, members⟩ := collected [] List.nodup_nil
  exact ⟨nodup, fun text => by simpa using members text⟩

theorem found_of_keyTexts
    {policy : Text}
    (listed : (keyTexts policy)[index]? = some text) :
    text ∈ findAll keyLength policy ∧
      ∃ before after, policy = before ++ text ++ after ∧
        Found keyLength before text after := by
  have member :=
    ((keyTexts_spec policy).2 text).mp (List.mem_of_getElem? listed)
  exact ⟨member, (mem_findAll_iff keyLength_proper).mp member⟩

namespace Descriptor

variable {policy : Text}

theorem key_head
    (descriptor : Descriptor policy)
    {text : Text}
    (member : text ∈ findAll keyLength policy) :
    '@' ∉ text ∧ ∃ first rest, text = first :: rest ∧
      first.isDigit = false ∧ first ≠ '@' := by
  obtain ⟨before, after, split, found⟩ :=
    (mem_findAll_iff keyLength_proper).mp member
  refine ⟨fun inside => descriptor.noSlot (by rw [split]; simp [inside]), ?_⟩
  have matched := found.matched
  obtain ⟨first, rest, same, notDigit, notAt⟩ := head_of_keyLength matched
  have nonempty := (keyLength_proper _ _ matched).1
  cases text with
  | nil =>
      cases nonempty
  | cons symbol others =>
      rw [List.cons_append, List.cons_eq_cons] at same
      exact ⟨symbol, others, rfl, same.1 ▸ notDigit, same.1 ▸ notAt⟩

variable {before text after : Text} {front key back : Text}

/--
An occurrence of a key that starts in a match of the scan ends in it: behind
the match stands a separator, and a key with a separator inside has an origin,
whose nearest bracket would have been the one of the match.
-/
theorem ends_inside
    (descriptor : Descriptor policy)
    (split : policy = before ++ text ++ after)
    (found : Found keyLength before text after)
    (member : key ∈ findAll keyLength policy)
    (occurs : policy = front ++ key ++ back)
    (low : before.length ≤ front.length)
    (high : front.length < before.length + text.length) :
    front.length + key.length ≤ before.length + text.length := by
  by_contra longer
  have textMember : text ∈ findAll keyLength policy :=
    (mem_findAll_iff keyLength_proper).mpr ⟨before, after, split, found⟩
  obtain ⟨keyBefore, keyAfter, keySplit, keyFound⟩ :=
    (mem_findAll_iff keyLength_proper).mp member
  -- Where the occurrence starts in the match.
  obtain ⟨skipped, rfl⟩ : before <+: front := by
    have first : before <+: policy := ⟨text ++ after, by rw [split]; simp⟩
    have second : front <+: policy := ⟨key ++ back, by rw [occurs]; simp⟩
    exact List.prefix_of_prefix_length_le first second low
  have rest : text ++ after = skipped ++ (key ++ back) := by
    have same := split.symm.trans occurs
    simpa [List.append_assoc] using same
  simp only [List.length_append] at low high longer
  obtain ⟨shared, rfl⟩ : skipped <+: text :=
    List.prefix_of_prefix_length_le ⟨key ++ back, rest.symm⟩
      ⟨after, rfl⟩ (by omega)
  rw [List.append_assoc, List.append_cancel_left_eq] at rest
  simp only [List.length_append] at high longer
  obtain ⟨beyond, rfl⟩ : shared <+: key :=
    List.prefix_of_prefix_length_le ⟨after, rest⟩ ⟨back, rfl⟩ (by omega)
  rw [List.append_assoc, List.append_cancel_left_eq] at rest
  cases beyond with
  | nil =>
      rw [List.append_nil] at longer
      omega
  | cons separator beyond =>
      subst rest
      have separates : separator.isAlphanum = false :=
        descriptor.keysEnd _ textMember before separator (beyond ++ back)
          (by rw [split]; simp)
      have stops : ∀ symbol others,
          separator :: others = symbol :: others →
            isBase58 symbol = false := by
        intro symbol others same
        cases same
        by_contra inKey
        rw [Bool.not_eq_false] at inKey
        rw [isAlphanum_of_isBase58 inKey] at separates
        cases separates
      have separatorInKey : separator ∈ shared ++ separator :: beyond := by
        simp
      obtain isXpub | ⟨content, xpub, keyShape, -, -, isXpub⟩ :=
        shape_of_match keyFound.matched
      · rw [isXpub.isAlphanum separatorInKey] at separates
        cases separates
      · cases shared with
        | nil =>
            simp at high
        | cons bracket shared =>
            rw [List.cons_append, List.cons_eq_cons] at keyShape
            obtain ⟨rfl, keyRest⟩ := keyShape
            have textMatched := found.matched
            obtain textXpub | ⟨textContent, textXpub, textShape, -, oneLine,
              isTextXpub⟩ := shape_of_match textMatched
            · have inText : '[' ∈ skipped ++ '[' :: shared := by simp
              exact absurd (textXpub.isAlphanum inText) (by decide)
            · obtain ⟨remaining, rfl, suffix⟩ :=
                behind_bracket textShape isTextXpub
              cases remaining with
              | nil =>
                  apply descriptor.noEmptyOrigin
                  exact ⟨before ++ skipped, textXpub ++ separator ::
                    (beyond ++ back), by rw [split]; simp⟩
              | cons first remaining =>
                  -- The key's own match ends at the same bracket.
                  have plain : '\n' ∉ first :: remaining :=
                    fun inside => oneLine (suffix.subset inside)
                  rw [List.mem_cons, not_or] at plain
                  obtain ⟨length, ends, bound⟩ :=
                    @originLength_le remaining textXpub
                      (separator :: (beyond ++ keyAfter)) plain.2
                      (xpubLength_of_stop isTextXpub (by
                        intro symbol others same
                        obtain ⟨rfl, -⟩ := List.cons_eq_cons.mp same
                        exact stops separator beyond rfl))
                  have keyMatched := keyFound.matched
                  have regrouped :
                      ('[' :: (first :: remaining ++ ']' :: textXpub) ++
                          separator :: beyond) ++ keyAfter =
                        '[' :: first :: (remaining ++ ']' ::
                          (textXpub ++ separator ::
                            (beyond ++ keyAfter))) := by simp
                  rw [regrouped, keyLength, if_neg (Ne.symm plain.1), ends]
                    at keyMatched
                  simp only [Option.map_some, Option.some.injEq,
                    List.length_append, List.length_cons] at keyMatched
                  omega

/-- An occurrence of a key that starts before a match of the scan ends before
it. -/
theorem ends_before
    (descriptor : Descriptor policy)
    (split : policy = before ++ text ++ after)
    (found : Found keyLength before text after)
    (member : key ∈ findAll keyLength policy)
    (occurs : policy = front ++ key ++ back)
    (low : front.length < before.length) :
    front.length + key.length ≤ before.length := by
  obtain ⟨keyBefore, keyAfter, keySplit, keyFound⟩ :=
    (mem_findAll_iff keyLength_proper).mp member
  obtain ⟨around, other, rest, otherSplit, otherFound, starts, covers⟩ :=
    exists_found keyLength_proper front
      (keyLength_isSome_of_match keyFound.matched back)
  rw [← List.append_assoc, ← occurs] at otherSplit
  have inside :=
    descriptor.ends_inside otherSplit otherFound member occurs starts covers
  obtain ⟨rfl, -⟩ | above | below :=
    otherFound.apart found (otherSplit.symm.trans split)
  · omega
  · omega
  · omega

end Descriptor

/-- The policy after the first keys are replaced. -/
def stage (texts : List Text) (policy : Text) : Nat → List Symbol
  | 0 => policy.map .inl
  | count + 1 =>
      match texts[count]? with
      | some text =>
          replaceAll (text.map .inl) [.inr count] (stage texts policy count)
      | none => stage texts policy count

@[simp] theorem flatMap_symbolText_map (text : Text) :
    (text.map Sum.inl).flatMap symbolText = text := by
  rw [List.flatMap_map]
  exact List.flatMap_singleton' text

@[simp] theorem flatMap_keyText_map (texts : List Text) (text : Text) :
    (text.map Sum.inl).flatMap (keyText texts) = text := by
  rw [List.flatMap_map]
  exact List.flatMap_singleton' text

/-- Replacing a key in the text of a template replaces it in the template. -/
theorem replaceAll_flatMap_symbolText
    {first : Char}
    {rest : Text}
    (plain : '@' ∉ first :: rest)
    (notDigit : first.isDigit = false)
    (index : Nat)
    (symbols : List Symbol) :
    replaceAll (first :: rest) (slot index) (symbols.flatMap symbolText) =
      (replaceAll ((first :: rest).map .inl) [.inr index]
        symbols).flatMap symbolText := by
  have nonempty : (first :: rest).map (Sum.inl : Char → Symbol) ≠ [] := by
    simp
  induction symbols using replace_induction nonempty with
  | empty =>
      rfl
  | found after inductionHypothesis =>
      rw [List.flatMap_append, flatMap_symbolText_map,
        replaceAll_pattern (List.cons_ne_nil first rest),
        replaceAll_pattern nonempty, List.flatMap_append,
        inductionHypothesis, List.flatMap_singleton]
      rfl
  | step symbol others other inductionHypothesis =>
      rw [replaceAll_other other, List.flatMap_cons,
        List.flatMap_cons, ← inductionHypothesis]
      have notHere :
          ¬ first :: rest <+: (symbol :: others).flatMap symbolText :=
        fun front => other (prefix_of_prefix_flatMap plain front)
      cases symbol with
      | inl character =>
          exact replaceAll_other notHere
      | inr number =>
          apply replaceAll_append_left
          intro before second split filled front
          -- A slot has no character that starts the key.
          cases second with
          | nil =>
              exact filled rfl
          | cons head second =>
              rw [List.cons_append, List.cons_prefix_cons] at front
              have member : first ∈ slot number := by
                have listed : head ∈ symbolText (.inr number) := by
                  rw [split]
                  simp
                rw [front.1]
                exact listed
              obtain at' | digit := mem_slot member
              · exact plain (by simp [at'])
              · rw [notDigit] at digit
                cases digit

theorem of_substituteKeys
    {Key : Type}
    {fromStr : Text → Option Key}
    {policy : Text}
    (descriptor : Descriptor policy)
    {remaining : List Text}
    (rest : (keyTexts policy).drop index = remaining)
    {pubkeys : List Key}
    {result : Text × List Key}
    (substituted :
      substituteKeys fromStr index remaining
        ((stage (keyTexts policy) policy index).flatMap symbolText, pubkeys) =
          .ok result) :
    result.1 =
        (stage (keyTexts policy) policy
          (index + remaining.length)).flatMap symbolText ∧
      result.2.map some = pubkeys.map some ++ remaining.map fromStr := by
  induction remaining generalizing index pubkeys with
  | nil =>
      cases substituted
      simp
  | cons text remaining inductionHypothesis =>
      have listed : (keyTexts policy)[index]? = some text := by
        rw [← List.head?_drop, rest, List.head?_cons]
      rw [substituteKeys] at substituted
      cases parsed : fromStr text with
      | none =>
          rw [parsed] at substituted
          cases substituted
      | some pubkey =>
          rw [parsed] at substituted
          dsimp only at substituted
          obtain ⟨plain, first, others, rfl, notDigit, -⟩ :=
            descriptor.key_head (found_of_keyTexts listed).1
          rw [replaceAll_flatMap_symbolText plain notDigit] at substituted
          have next :
              stage (keyTexts policy) policy (index + 1) =
                replaceAll ((first :: others).map .inl) [.inr index]
                  (stage (keyTexts policy) policy index) := by
            rw [stage, listed]
          rw [← next] at substituted
          have later :
              (keyTexts policy).drop (index + 1) = remaining := by
            rw [← List.drop_drop, rest, List.drop_one, List.tail_cons]
          obtain ⟨template, keys⟩ := inductionHypothesis later substituted
          refine ⟨?_, ?_⟩
          · rw [template, List.length_cons, Nat.add_assoc,
              Nat.add_comm 1]
          · rw [keys]
            simp [parsed]

section Stages

variable {policy : Text}

theorem stage_keyText
    (descriptor : Descriptor policy)
    (count : Nat) :
    (stage (keyTexts policy) policy count).flatMap
      (keyText (keyTexts policy)) = policy := by
  induction count with
  | zero =>
      exact flatMap_keyText_map (keyTexts policy) policy
  | succ count inductionHypothesis =>
      rw [stage]
      cases listed : (keyTexts policy)[count]? with
      | none =>
          exact inductionHypothesis
      | some text =>
          obtain ⟨-, first, rest, rfl, -⟩ :=
            descriptor.key_head (found_of_keyTexts listed).1
          dsimp only
          rw [flatMap_replaceAll (by simp), inductionHypothesis]
          rw [flatMap_keyText_map, List.flatMap_singleton, keyText, listed]
          rfl

variable {count index : Nat} {before text after : Text} {key : Text}

theorem stage_slots
    (descriptor : Descriptor policy)
    (member : .inr index ∈ stage (keyTexts policy) policy count) :
    index < count ∧ index < (keyTexts policy).length := by
  induction count with
  | zero =>
      rw [stage, List.mem_map] at member
      obtain ⟨character, -, same⟩ := member
      cases same
  | succ count inductionHypothesis =>
      rw [stage] at member
      cases listed : (keyTexts policy)[count]? with
      | none =>
          rw [listed] at member
          have bounds := inductionHypothesis member
          exact ⟨by omega, bounds.2⟩
      | some text =>
          obtain ⟨-, first, rest, rfl, -⟩ :=
            descriptor.key_head (found_of_keyTexts listed).1
          rw [listed] at member
          obtain old | new := mem_of_replaceAll (by simp) member
          · have bounds := inductionHypothesis old
            exact ⟨by omega, bounds.2⟩
          · rw [List.mem_singleton, Sum.inr.injEq] at new
            rw [new]
            exact ⟨Nat.lt_succ_self count,
              (List.getElem?_eq_some_iff.mp listed).1⟩

theorem stage_characters
    (descriptor : Descriptor policy)
    {count : Nat}
    {character : Char}
    (member : .inl character ∈ stage (keyTexts policy) policy count) :
    character ∈ policy := by
  rw [← stage_keyText descriptor count, List.mem_flatMap]
  exact ⟨.inl character, member, List.mem_singleton_self character⟩

theorem stage_slot
    (descriptor : Descriptor policy)
    {before after : List Symbol}
    (split :
      stage (keyTexts policy) policy count = before ++ .inr index :: after) :
    ∃ text, (keyTexts policy)[index]? = some text ∧
      policy =
        before.flatMap (keyText (keyTexts policy)) ++ text ++
          after.flatMap (keyText (keyTexts policy)) := by
  have bounds : index < count ∧ index < (keyTexts policy).length :=
    stage_slots descriptor (by rw [split]; simp)
  refine ⟨_, List.getElem?_eq_getElem bounds.2, ?_⟩
  conv_lhs => rw [← stage_keyText descriptor count, split]
  rw [List.flatMap_append, List.flatMap_cons, keyText,
    List.getElem?_eq_getElem bounds.2, List.append_assoc]
  rfl

theorem stage_spaced
    (descriptor : Descriptor policy)
    (count : Nat) :
    Spaced (stage (keyTexts policy) policy count) := by
  intro before index symbol after split
  obtain ⟨text, listed, same⟩ := stage_slot descriptor split
  have separates :=
    descriptor.keysEnd text (found_of_keyTexts listed).1 _ symbol
      (after.flatMap (keyText (keyTexts policy))) same
  rw [Char.isAlphanum, Bool.or_eq_false_iff] at separates
  exact separates.2

theorem stage_occurrence
    (descriptor : Descriptor policy)
    {count : Nat}
    {front : List Symbol}
    {back : List Symbol}
    (split :
      stage (keyTexts policy) policy count =
        front ++ key.map Sum.inl ++ back) :
    policy =
      front.flatMap (keyText (keyTexts policy)) ++ key ++
        back.flatMap (keyText (keyTexts policy)) := by
  conv_lhs => rw [← stage_keyText descriptor count, split]
  rw [List.flatMap_append, List.flatMap_append, flatMap_keyText_map]

/-- What stands in the place of a key, before its turn and after it. -/
def placed (text : Text) (index count : Nat) : List Symbol :=
  if count ≤ index then text.map .inl else [.inr index]

theorem infix_of_infix_map
    {part text : Text}
    (inside :
      part.map (Sum.inl : Char → Symbol) <:+: text.map Sum.inl) :
    part <:+: text := by
  obtain ⟨other, isInfix, same⟩ := List.infix_map_iff.mp inside
  rw [List.map_injective_iff.mpr Sum.inl_injective same]
  exact isInfix

theorem replaceAll_placed
    (separate : Separate (keyTexts policy))
    {index count : Nat}
    {text key : Text}
    (listed : (keyTexts policy)[index]? = some text)
    (turn : (keyTexts policy)[count]? = some key)
    (filled : key ≠ []) :
    replaceAll (key.map Sum.inl) [.inr count] (placed text index count) =
      placed text index (count + 1) := by
  have nonempty : key.map (Sum.inl : Char → Symbol) ≠ [] := by
    simpa using filled
  obtain earlier | rfl | later := lt_trichotomy count index
  · rw [placed, if_pos earlier.le, placed, if_pos (Nat.succ_le_of_lt earlier),
      replaceAll_absent nonempty]
    intro inside
    exact separate count index key text earlier turn listed
      (infix_of_infix_map inside)
  · rw [turn, Option.some_inj] at listed
    have whole :
        replaceAll (key.map Sum.inl) [.inr count] (key.map Sum.inl ++ []) =
          [.inr count] ++ replaceAll (key.map Sum.inl) [.inr count] [] :=
      replaceAll_pattern nonempty []
    rw [List.append_nil, replaceAll_nil, List.append_nil] at whole
    rw [placed, if_pos le_rfl, placed, if_neg (by omega), ← listed, whole]
  · rw [placed, if_neg (by omega), placed, if_neg (by omega),
      replaceAll_absent nonempty]
    intro inside
    obtain ⟨first, rest, rfl⟩ := List.exists_cons_of_ne_nil filled
    have member : (Sum.inl first : Symbol) ∈ [Sum.inr index] :=
      inside.subset (by simp)
    cases List.mem_singleton.mp member

theorem stage_before
    (descriptor : Descriptor policy)
    {count : Nat}
    (split : policy = before ++ text ++ after)
    (found : Found keyLength before text after)
    {first second tail : List Symbol}
    (same :
      stage (keyTexts policy) policy count = first ++ (second ++ tail))
    (front :
      (first ++ second).flatMap (keyText (keyTexts policy)) = before)
    (filled : second ≠ [])
    (member : key ∈ findAll keyLength policy)
    (occurs : key.map Sum.inl <+: second ++ tail) :
    (key.map (Sum.inl : Char → Symbol)).length ≤ second.length := by
  by_contra longer
  rw [List.length_map] at longer
  have characters :
      second = (key.take second.length).map Sum.inl := by
    rw [List.map_take]
    exact List.prefix_iff_eq_take.mp
      (List.prefix_of_prefix_length_le (List.prefix_append second tail)
        occurs (by rw [List.length_map]; omega))
  have size :
      (second.flatMap (keyText (keyTexts policy))).length =
        second.length := by
    rw [characters, flatMap_keyText_map]
    simp
  obtain ⟨back, reach⟩ := occurs
  have here :
      stage (keyTexts policy) policy count =
        first ++ key.map Sum.inl ++ back := by
    rw [same, ← reach, List.append_assoc]
  have positive := List.length_pos_of_ne_nil filled
  rw [List.flatMap_append] at front
  have ends :=
    descriptor.ends_before split found member
      (stage_occurrence descriptor here)
      (by rw [← front, List.length_append]; omega)
  rw [← front, List.length_append] at ends
  omega

/-- A key left in a stage that starts in the place of another ends in it. -/
theorem stage_inside
    (descriptor : Descriptor policy)
    (split : policy = before ++ text ++ after)
    (found : Found keyLength before text after)
    {front back : List Symbol}
    (same :
      stage (keyTexts policy) policy count =
        front ++ (placed text index count ++ back))
    (frontText : front.flatMap (keyText (keyTexts policy)) = before)
    {first second : List Symbol}
    (place : placed text index count = first ++ second)
    (filled : second ≠ [])
    (member : key ∈ findAll keyLength policy)
    (occurs : key.map Sum.inl <+: second ++ back) :
    (key.map (Sum.inl : Char → Symbol)).length ≤ second.length := by
  rw [place] at same
  rw [placed] at place
  split at place
  · obtain ⟨skipped, rest, rfl, rfl, rfl⟩ := List.map_eq_append_iff.mp place
    obtain ⟨beyond, reach⟩ := occurs
    have here :
        stage (keyTexts policy) policy count =
          (front ++ skipped.map Sum.inl) ++ key.map Sum.inl ++ beyond := by
      rw [same, List.append_assoc, ← reach]
      simp
    have positive : 0 < rest.length := by
      simpa using List.length_pos_of_ne_nil filled
    have occurrence := stage_occurrence descriptor here
    rw [List.flatMap_append, frontText, flatMap_keyText_map] at occurrence
    have ends :=
      descriptor.ends_inside split found member occurrence
        (by rw [List.length_append]; omega)
        (by rw [List.length_append, List.length_append]; omega)
    rw [List.length_append, List.length_append] at ends
    rw [List.length_map, List.length_map]
    omega
  · -- A number starts no key.
    obtain ⟨-, head, rest, rfl, -⟩ := descriptor.key_head member
    obtain ⟨-, rfl⟩ | ⟨-, rfl⟩ := List.append_eq_singleton_iff.mp place.symm
    · rw [List.map_cons, List.singleton_append,
        List.cons_prefix_cons] at occurs
      cases occurs.1
    · exact absurd rfl filled

/--
A key of a policy with separate keys keeps its place until its turn, and its
number has the place from then on: no other key reaches into it.
-/
theorem stage_located
    (descriptor : Descriptor policy)
    (separate : Separate (keyTexts policy))
    {index : Nat}
    {text before after : Text}
    (listed : (keyTexts policy)[index]? = some text)
    (split : policy = before ++ text ++ after)
    (found : Found keyLength before text after)
    (count : Nat) :
    ∃ front back,
      stage (keyTexts policy) policy count =
          front ++ (placed text index count ++ back) ∧
        front.flatMap (keyText (keyTexts policy)) = before ∧
        back.flatMap (keyText (keyTexts policy)) = after := by
  induction count with
  | zero =>
      refine ⟨before.map .inl, after.map .inl, ?_, flatMap_keyText_map _ _,
        flatMap_keyText_map _ _⟩
      rw [stage, placed, if_pos (Nat.zero_le index), ← List.map_append,
        ← List.map_append, ← List.append_assoc, ← split]
  | succ count inductionHypothesis =>
      obtain ⟨front, back, same, frontText, backText⟩ := inductionHypothesis
      cases turn : (keyTexts policy)[count]? with
      | none =>
          refine ⟨front, back, ?_, frontText, backText⟩
          have bound := (List.getElem?_eq_some_iff.mp listed).1
          have finished := List.getElem?_eq_none_iff.mp turn
          rw [stage, turn, placed, if_neg (by omega)]
          rw [placed, if_neg (by omega)] at same
          exact same
      | some key =>
          have member := (found_of_keyTexts turn).1
          obtain ⟨-, first, rest, shape, -⟩ := descriptor.key_head member
          have filled : key ≠ [] := by
            rw [shape]
            simp
          have nonempty : key.map (Sum.inl : Char → Symbol) ≠ [] := by
            simpa using filled
          have kept (part : List Symbol) :
              (replaceAll (key.map Sum.inl) [.inr count] part).flatMap
                  (keyText (keyTexts policy)) =
                part.flatMap (keyText (keyTexts policy)) := by
            apply flatMap_replaceAll nonempty
            rw [flatMap_keyText_map, List.flatMap_singleton, keyText, turn]
            rfl
          refine ⟨replaceAll (key.map Sum.inl) [.inr count] front,
            replaceAll (key.map Sum.inl) [.inr count] back, ?_,
            (kept front).trans frontText, (kept back).trans backText⟩
          rw [stage, turn, ← replaceAll_placed separate listed turn filled]
          dsimp only
          rw [same, replaceAll_append nonempty, replaceAll_append nonempty]
          · intro skipped others place filled' occurs
            exact stage_inside descriptor split found same frontText place
              filled' member occurs
          · intro skipped others divided filled' occurs
            rw [divided, List.append_assoc] at same
            rw [divided] at frontText
            exact stage_before descriptor split found same frontText filled'
              member occurs

theorem stage_used
    (descriptor : Descriptor policy)
    (separate : Separate (keyTexts policy))
    {index : Nat}
    (bound : index < (keyTexts policy).length) :
    .inr index ∈
      stage (keyTexts policy) policy (keyTexts policy).length := by
  have listed := List.getElem?_eq_getElem bound
  obtain ⟨-, before, after, split, found⟩ := found_of_keyTexts listed
  obtain ⟨front, back, same, -⟩ :=
    stage_located descriptor separate listed split found
      (keyTexts policy).length
  rw [same, placed, if_neg (by omega)]
  simp

theorem stage_noXpub
    (descriptor : Descriptor policy)
    (separate : Separate (keyTexts policy))
    (isXpub : IsXpub xpub) :
    ¬ xpub.map Sum.inl <:+:
      stage (keyTexts policy) policy (keyTexts policy).length := by
  rintro ⟨front, back, left⟩
  have occurs := stage_occurrence descriptor left.symm
  -- The scan finds a key around what is left.
  obtain ⟨before, text, after, split, found, low, high⟩ :=
    exists_found keyLength_proper (front.flatMap (keyText (keyTexts policy)))
      (keyLength_isSome_of_xpub isXpub
        (back.flatMap (keyText (keyTexts policy))))
  rw [← List.append_assoc, ← occurs] at split
  have member :=
    (mem_findAll_iff keyLength_proper).mpr ⟨before, after, split, found⟩
  obtain ⟨index, bound, same⟩ := List.mem_iff_getElem.mp
    (((keyTexts_spec policy).2 text).mpr member)
  have listed : (keyTexts policy)[index]? = some text := by
    rw [List.getElem?_eq_getElem bound, same]
  obtain ⟨front', back', located, frontText, -⟩ :=
    stage_located descriptor separate listed split found
      (keyTexts policy).length
  rw [placed, if_neg (by omega)] at located
  -- Its number has the place, so that what is left is before or behind it.
  have whole := left.trans located
  rw [List.append_assoc] at whole
  obtain ⟨part, rfl, rest⟩ | ⟨part, rfl, rest⟩ :=
    List.append_eq_append_iff.mp whole
  · obtain ⟨shared, rfl, -⟩ | ⟨shared, inXpub, rest⟩ :=
      List.append_eq_append_iff.mp rest
    · obtain ⟨version, run, rfl, -⟩ := isXpub.shape
      rw [← frontText] at low
      simp only [List.flatMap_append, flatMap_keyText_map,
        List.length_append, List.length_cons] at low
      omega
    · cases shared with
      | nil =>
          obtain ⟨version, run, rfl, -⟩ := isXpub.shape
          rw [List.append_nil] at inXpub
          rw [← frontText, ← inXpub] at low
          simp only [List.flatMap_append, flatMap_keyText_map,
            List.length_append, List.length_cons] at low
          omega
      | cons symbol shared =>
          rw [List.singleton_append, List.cons_append,
            List.cons_eq_cons] at rest
          have member : (.inr index : Symbol) ∈ xpub.map Sum.inl := by
            rw [inXpub, rest.1]
            simp
          obtain ⟨character, -, same⟩ := List.mem_map.mp member
          cases same
  · cases part with
    | nil =>
        obtain ⟨version, run, rfl, -⟩ := isXpub.shape
        rw [List.nil_append, List.singleton_append, List.map_cons,
          List.cons_append, List.cons_eq_cons] at rest
        cases rest.1
    | cons symbol part =>
        rw [List.singleton_append, List.cons_append,
          List.cons_eq_cons] at rest
        rw [← rest.1, List.flatMap_append, List.flatMap_cons, frontText,
          keyText, listed] at high
        simp only [List.length_append, Option.getD_some] at high
        omega

theorem stage_unused
    (descriptor : Descriptor policy)
    {earlier later : Nat}
    {first second : Text}
    (order : earlier < later)
    (firstListed : (keyTexts policy)[earlier]? = some first)
    (secondListed : (keyTexts policy)[later]? = some second)
    (inside : first <:+: second)
    (count : Nat) :
    .inr later ∉ stage (keyTexts policy) policy count := by
  obtain ⟨-, head, rest, rfl, -⟩ :=
    descriptor.key_head (found_of_keyTexts firstListed).1
  have nonempty (key : Text) {index : Nat}
      (listed : (keyTexts policy)[index]? = some key) :
      key.map (Sum.inl : Char → Symbol) ≠ [] := by
    obtain ⟨-, symbol, others, rfl, -⟩ :=
      descriptor.key_head (found_of_keyTexts listed).1
    simp
  have plain (key : Text) (number : Nat) :
      (Sum.inr number : Symbol) ∉ key.map Sum.inl := by
    simp
  -- The earlier key is gone after its turn.
  have gone :
      ∀ count, earlier < count →
        ¬ (head :: rest).map Sum.inl <:+:
          stage (keyTexts policy) policy count := by
    intro count
    induction count with
    | zero =>
        intro impossible
        omega
    | succ count inductionHypothesis =>
        intro turned
        rw [stage]
        obtain rfl | passed := Nat.lt_succ_iff_lt_or_eq.mp turned |>.symm
        · rw [firstListed]
          exact not_infix_replaceAll (nonempty _ firstListed) (plain _ _) _
        · cases listed : (keyTexts policy)[count]? with
          | none =>
              exact inductionHypothesis passed
          | some key =>
              intro still
              exact inductionHypothesis passed
                (infix_of_infix_replaceAll (nonempty _ listed) (plain _ _)
                  still)
  induction count with
  | zero =>
      simp [stage]
  | succ count inductionHypothesis =>
      intro member
      rw [stage] at member
      cases listed : (keyTexts policy)[count]? with
      | none =>
          rw [listed] at member
          exact inductionHypothesis member
      | some key =>
          rw [listed] at member
          obtain old | new := mem_of_replaceAll (nonempty _ listed) member
          · exact inductionHypothesis old
          · rw [List.mem_singleton, Sum.inr.injEq] at new
            subst new
            rw [secondListed, Option.some_inj] at listed
            subst listed
            have absent :
                ¬ second.map Sum.inl <:+:
                  stage (keyTexts policy) policy later :=
              fun found => gone later order
                ((inside.map Sum.inl).trans found)
            dsimp only at member
            rw [replaceAll_absent (nonempty _ secondListed) absent]
              at member
            exact inductionHypothesis member

end Stages

/-- The last stage without the checksum. -/
def templateSymbols (policy : Text) : List Symbol :=
  beforeLast (.inl '#')
    (stage (keyTexts policy) policy (keyTexts policy).length)

/-- The template is the last stage without the checksum, and the keys are
what their texts say. -/
theorem of_extractKeysAndTemplate
    {Key : Type}
    {fromStr : Text → Option Key}
    {policy : Text}
    (descriptor : Descriptor policy)
    {template : Text}
    {pubkeys : List Key}
    (extracted :
      extractKeysAndTemplate fromStr policy = .ok (template, pubkeys)) :
    template = (templateSymbols policy).flatMap symbolText ∧
      pubkeys.map some = (keyTexts policy).map fromStr := by
  rw [extractKeysAndTemplate] at extracted
  cases substituted :
      substituteKeys fromStr 0 (keyTexts policy) (policy, []) with
  | error cause =>
      rw [substituted] at extracted
      cases extracted
  | ok result =>
      rw [substituted] at extracted
      dsimp only at extracted
      have started :
          substituteKeys fromStr 0 (keyTexts policy)
            ((stage (keyTexts policy) policy 0).flatMap symbolText, []) =
              .ok result := by
        rw [stage, flatMap_symbolText_map]
        exact substituted
      obtain ⟨whole, parsed⟩ :=
        of_substituteKeys descriptor List.drop_zero started
      have cut :
          template = beforeLast '#' result.1 ∧ pubkeys = result.2 := by
        rw [beforeLast]
        cases split : rsplitOnce '#' result.1 with
        | none | some parts =>
            rw [split] at extracted
            cases extracted
            exact ⟨rfl, rfl⟩
      refine ⟨?_, by rw [cut.2, parsed]; rfl⟩
      have kept : symbolText (.inl '#') = ['#'] := rfl
      rw [cut.1, whole, Nat.zero_add, templateSymbols,
        flatMap_beforeLast kept]
      intro other _ others
      cases other with
      | inl character =>
          intro same
          exact others (congrArg Sum.inl (List.mem_singleton.mp same).symm)
      | inr index =>
          intro member
          obtain same | digit := mem_slot member
          · cases same
          · cases digit

section Symbols

variable {policy : Text}

theorem templateSymbols_front (policy : Text) :
    templateSymbols policy <+:
      stage (keyTexts policy) policy (keyTexts policy).length := by
  rw [templateSymbols]
  obtain ⟨-, whole⟩ | ⟨after, split, -⟩ :=
    beforeLast_cases (Sum.inl '#')
      (stage (keyTexts policy) policy (keyTexts policy).length)
  · rw [whole]
  · exact ⟨_, split.symm⟩

theorem mem_templateSymbols_iff
    (descriptor : Descriptor policy)
    (index : Nat) :
    .inr index ∈ templateSymbols policy ↔
      .inr index ∈
        stage (keyTexts policy) policy (keyTexts policy).length := by
  rw [templateSymbols]
  obtain ⟨-, whole⟩ | ⟨after, split, -⟩ :=
    beforeLast_cases (Sum.inl '#')
      (stage (keyTexts policy) policy (keyTexts policy).length)
  · rw [whole]
  · constructor
    · intro member
      rw [split]
      exact List.mem_append_left _ member
    · intro member
      rw [split, List.mem_append, List.mem_cons] at member
      obtain inside | same | behind := member
      · exact inside
      · cases same
      · obtain ⟨first, rest, rfl⟩ := List.append_of_mem behind
        have regrouped := split
        rw [← List.cons_append, ← List.append_assoc] at regrouped
        obtain ⟨text, listed, same⟩ := stage_slot descriptor regrouped
        exfalso
        apply descriptor.checksumLast text (found_of_keyTexts listed).1 _ _
          same
        simp [keyText]

theorem readTemplate_templateSymbols
    (descriptor : Descriptor policy) :
    readTemplate ((templateSymbols policy).flatMap symbolText) =
      templateSymbols policy := by
  apply readTemplate_flatMap
  · intro member
    exact descriptor.noSlot (stage_characters descriptor
      ((templateSymbols_front policy).subset member))
  · intro before index symbol after split
    obtain ⟨rest, same⟩ := templateSymbols_front policy
    exact stage_spaced descriptor (keyTexts policy).length before index
      symbol (after ++ rest) (by rw [← same, split]; simp)

theorem templateSymbols_keyText
    (descriptor : Descriptor policy) :
    (templateSymbols policy).flatMap (keyText (keyTexts policy)) =
      withoutChecksum policy := by
  have kept : keyText (keyTexts policy) (.inl '#') = ['#'] := rfl
  rw [templateSymbols, flatMap_beforeLast kept, stage_keyText descriptor,
    withoutChecksum]
  intro other member others
  cases other with
  | inl character =>
      intro same
      exact others (congrArg Sum.inl (List.mem_singleton.mp same).symm)
  | inr index =>
      obtain ⟨before, after, split⟩ := List.append_of_mem member
      obtain ⟨text, listed, same⟩ := stage_slot descriptor split
      rw [keyText, listed]
      intro inKey
      exact descriptor.checksumLast text (found_of_keyTexts listed).1 _ _
        same (List.mem_append_right _ inKey)

theorem findAll_templateSymbols
    (descriptor : Descriptor policy)
    (separate : Separate (keyTexts policy)) :
    findAll keyLength ((templateSymbols policy).flatMap symbolText) = [] := by
  rw [List.eq_nil_iff_forall_not_mem]
  intro found member
  obtain ⟨before, after, split, isFound⟩ :=
    (mem_findAll_iff keyLength_proper).mp member
  have inTemplate {part : Text} (inside : part <:+: found ++ after) :
      part <:+:
        (stage (keyTexts policy) policy
          (keyTexts policy).length).flatMap symbolText := by
    have suffix :
        found ++ after <:+: (templateSymbols policy).flatMap symbolText :=
      ⟨before, [], by rw [split]; simp⟩
    obtain ⟨rest, same⟩ := templateSymbols_front policy
    apply inside.trans
    apply suffix.trans
    rw [← same, List.flatMap_append]
    exact (List.prefix_append _ _).isInfix
  obtain ⟨xpub, isXpub, inside⟩ :
      ∃ xpub, IsXpub xpub ∧ xpub <:+: found ++ after := by
    obtain ⟨xpub, rest, same, isXpub, -⟩ |
      ⟨content, xpub, rest, same, -, -, isXpub, -⟩ :=
        of_keyLength isFound.matched
    · exact ⟨xpub, isXpub, [], rest, by rw [same]; rfl⟩
    · exact ⟨xpub, isXpub, '[' :: (content ++ [']']), rest,
        by rw [same]; simp⟩
  apply stage_noXpub descriptor separate isXpub
  have letters : ∀ symbol ∈ xpub, symbol.isAlphanum = true :=
    fun symbol => isXpub.isAlphanum
  obtain ⟨version, run, rfl, isVersion, -⟩ := isXpub.shape
  apply infix_of_infix_flatMap _ (isAlphanum_of_isVersion isVersion).2.1
    (inTemplate inside)
  intro slotInside
  exact absurd (letters '@' slotInside) (by decide)

end Symbols

/--
The keys are what their texts say, and the template with them stands for the
policy alone exactly when no key is part of one that is first found later: a
key that is used bare and then with its origin takes the place of the other.
-/
theorem template_inverts_iff
    {Key : Type}
    (fromStr : Text → Option Key)
    {policy : Text}
    (descriptor : Descriptor policy)
    {template : Text}
    {pubkeys : List Key}
    (extracted :
      extractKeysAndTemplate fromStr policy = .ok (template, pubkeys)) :
    pubkeys.map some = (keyTexts policy).map fromStr ∧
      (Inverts policy template (keyTexts policy) ↔
        Separate (keyTexts policy)) := by
  obtain ⟨rfl, parsed⟩ := of_extractKeysAndTemplate descriptor extracted
  refine ⟨parsed, ?_, ?_⟩
  · intro inverts earlier later first second order firstListed secondListed
      inside
    have bound := (List.getElem?_eq_some_iff.mp secondListed).1
    have member := inverts.used later bound
    rw [readTemplate_templateSymbols descriptor,
      mem_templateSymbols_iff descriptor] at member
    exact stage_unused descriptor order firstListed secondListed inside _
      member
  · intro separate
    exact {
      noKey := findAll_templateSymbols descriptor separate
      numbered := by
        intro index member
        rw [readTemplate_templateSymbols descriptor,
          mem_templateSymbols_iff descriptor] at member
        exact (stage_slots descriptor member).2
      restores := by
        rw [readTemplate_templateSymbols descriptor,
          templateSymbols_keyText descriptor]
      distinct := (keyTexts_spec policy).1
      used := by
        intro index bound
        rw [readTemplate_templateSymbols descriptor,
          mem_templateSymbols_iff descriptor]
        exact stage_used descriptor separate bound
    }

/-- An extended key. -/
def sampleXpub : Text :=
  ("tpubDDtb2WPYwEWw2WWDV7reLV348iJHw2HmhzvPysKKrJw3hYmvrd4jasyoioVPdKGQq" ++
    "jyaBMEvTn1HvHWDSVqQ6amyyxRZ5YjpPBBGjJ8yu8S").toList

def sampleKey : Text :=
  "[f5acc2fd/49'/1'/0']".toList ++ sampleXpub

/-- The key twice with its origin, behind a checksum. -/
theorem template_inverts_sample :
    let policy :=
      "wsh(or_d(pk(".toList ++ sampleKey ++ "/0/*),and_v(v:pk(".toList ++
        sampleKey ++ "/1/*),older(100))))#wp0w3hlw".toList
    let template := "wsh(or_d(pk(@0/0/*),and_v(v:pk(@0/1/*),older(100))))"
    [sampleKey].map some = (keyTexts policy).map some ∧
      (Inverts policy template.toList (keyTexts policy) ↔
        Separate (keyTexts policy)) :=
  template_inverts_iff some (by decide +kernel) (by decide +kernel)

/-- The key bare and then with its origin: the second one is not used. -/
theorem template_loses_origin :
    let policy :=
      "wsh(or_d(pk(".toList ++ sampleXpub ++ "/0/*),and_v(v:pk(".toList ++
        sampleKey ++ "/1/*),older(100))))".toList
    let template :=
      "wsh(or_d(pk(@0/0/*),and_v(v:pk([f5acc2fd/49'/1'/0']@0/1/*)," ++
        "older(100))))"
    Descriptor policy ∧
      extractKeysAndTemplate some policy =
        .ok (template.toList, [sampleXpub, sampleKey]) ∧
      ¬ Inverts policy template.toList (keyTexts policy) := by
  intro policy template
  refine ⟨by decide +kernel, by decide +kernel, ?_⟩
  intro inverts
  have used := inverts.used 1 (by decide +kernel)
  have numbers :
      (readTemplate template.toList).filterMap Sum.getRight? = [0, 0] := by
    decide +kernel
  have second : 1 ∈ (readTemplate template.toList).filterMap Sum.getRight? :=
    List.mem_filterMap.mpr ⟨_, used, rfl⟩
  rw [numbers] at second
  simp at second

end Bwk.Hwi
