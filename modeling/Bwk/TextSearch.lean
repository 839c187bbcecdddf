import Mathlib.Data.List.Infix
import Mathlib.Data.List.Basic
import Mathlib.Tactic.Common

namespace Bwk.TextSearch

/-!
# Searching and replacing from left to right

A matcher tells how long a match at the front of a text is.  `findAll` lists
the matches that do not overlap, from left to right, and `replaceAll` replaces
the occurrences of a pattern that way.  Where a match stands is a split of the
text, so that facts about positions are facts about appends.
-/

variable {α : Type}

/-- The length of what is matched at the front of a text. -/
abbrev Matcher (α : Type) := List α → Option Nat

/-- A matcher whose matches are nonempty parts of the text. -/
def Matcher.Proper (matchAt : Matcher α) : Prop :=
  ∀ text length,
    matchAt text = some length → 0 < length ∧ length ≤ text.length

/-- The matches of a text after skipping the rest of the last one. -/
def matchesFrom (matchAt : Matcher α) : Nat → List α → List (List α)
  | _, [] => []
  | skip + 1, _ :: rest => matchesFrom matchAt skip rest
  | 0, symbol :: rest =>
      match matchAt (symbol :: rest) with
      | some (length + 1) =>
          (symbol :: rest).take (length + 1) ::
            matchesFrom matchAt length rest
      | _ => matchesFrom matchAt 0 rest

def findAll (matchAt : Matcher α) (text : List α) : List (List α) :=
  matchesFrom matchAt 0 text

/-- Replace a pattern after skipping the rest of its last occurrence. -/
def replaceFrom [DecidableEq α] (pattern replacement : List α) :
    Nat → List α → List α
  | _, [] => []
  | skip + 1, _ :: rest => replaceFrom pattern replacement skip rest
  | 0, symbol :: rest =>
      if pattern <+: symbol :: rest then
        replacement ++
          replaceFrom pattern replacement (pattern.length - 1) rest
      else
        symbol :: replaceFrom pattern replacement 0 rest

/-- Replace every occurrence of a nonempty pattern, from left to right. -/
def replaceAll [DecidableEq α] (pattern replacement text : List α) : List α :=
  replaceFrom pattern replacement 0 text

/-- What stands before and after the last of a symbol. -/
def rsplitOnce [DecidableEq α] (symbol : α) :
    List α → Option (List α × List α)
  | [] => none
  | first :: rest =>
      match rsplitOnce symbol rest with
      | some (before, after) => some (first :: before, after)
      | none => if first = symbol then some ([], rest) else none

/-- What stands before the last of a symbol, the whole text without one. -/
def beforeLast [DecidableEq α] (symbol : α) (text : List α) : List α :=
  match rsplitOnce symbol text with
  | some (before, _) => before
  | none => text

/-- The scan of a text finds a match between two parts of it. -/
inductive Found (matchAt : Matcher α) :
    List α → List α → List α → Prop where
  | here
      {found after : List α}
      (matched : matchAt (found ++ after) = some found.length) :
      Found matchAt [] found after
  | step
      {symbol : α}
      {before found after : List α}
      (unmatched : matchAt (symbol :: (before ++ found ++ after)) = none)
      (later : Found matchAt before found after) :
      Found matchAt (symbol :: before) found after
  | past
      {earlier before found after : List α}
      (matched :
        matchAt (earlier ++ (before ++ found ++ after)) =
          some earlier.length)
      (later : Found matchAt before found after) :
      Found matchAt (earlier ++ before) found after

section Matches

variable {matchAt : Matcher α}

theorem matchesFrom_eq (skip : Nat) (text : List α) :
    matchesFrom matchAt skip text = findAll matchAt (text.drop skip) := by
  induction text generalizing skip with
  | nil =>
      cases skip with
      | zero =>
          rfl
      | succ skip =>
          rfl
  | cons symbol rest inductionHypothesis =>
      cases skip with
      | zero =>
          rfl
      | succ skip =>
          exact inductionHypothesis skip

theorem findAll_of_match
    (proper : Matcher.Proper matchAt)
    {found after : List α}
    (matched : matchAt (found ++ after) = some found.length) :
    findAll matchAt (found ++ after) = found :: findAll matchAt after := by
  cases found with
  | nil =>
      exact absurd (proper _ _ matched).1 (lt_irrefl 0)
  | cons symbol rest =>
      rw [List.length_cons] at matched
      rw [findAll, List.cons_append, matchesFrom, ← List.cons_append,
        matched]
      dsimp only
      rw [matchesFrom_eq, ← List.length_cons (a := symbol),
        List.take_left]
      simp

variable {before found after : List α} {rest : List α}

theorem findAll_of_none
    {symbol : α}
    (unmatched : matchAt (symbol :: rest) = none) :
    findAll matchAt (symbol :: rest) = findAll matchAt rest := by
  rw [findAll, matchesFrom, unmatched]
  rfl

theorem front_cases
    (proper : Matcher.Proper matchAt)
    (text : List α) :
    text = [] ∨
      (∃ found after, text = found ++ after ∧ found ≠ [] ∧
        matchAt text = some found.length) ∨
      ∃ symbol rest, text = symbol :: rest ∧ matchAt text = none := by
  cases text with
  | nil =>
      exact .inl rfl
  | cons symbol rest =>
      right
      cases matched : matchAt (symbol :: rest) with
      | none =>
          exact .inr ⟨symbol, rest, rfl, rfl⟩
      | some length =>
          obtain ⟨positive, inside⟩ := proper _ _ matched
          refine .inl ⟨(symbol :: rest).take length,
            (symbol :: rest).drop length,
            (List.take_append_drop length _).symm, ?_, ?_⟩
          · intro empty
            have lengths := congrArg List.length empty
            rw [List.length_take_of_le inside] at lengths
            simp at lengths
            omega
          · rw [List.length_take_of_le inside]

theorem scan_induction
    (proper : Matcher.Proper matchAt)
    {motive : List α → Prop}
    (empty : motive [])
    (past :
      ∀ found after, found ≠ [] →
        matchAt (found ++ after) = some found.length →
          motive after → motive (found ++ after))
    (step :
      ∀ symbol rest, matchAt (symbol :: rest) = none →
        motive rest → motive (symbol :: rest))
    (text : List α) :
    motive text := by
  induction size : text.length using Nat.strong_induction_on
    generalizing text with
  | _ bound inductionHypothesis =>
    obtain rfl | ⟨found, after, rfl, nonempty, matched⟩ |
      ⟨symbol, rest, rfl, unmatched⟩ := front_cases proper text
    · exact empty
    · have positive := List.length_pos_of_ne_nil nonempty
      rw [List.length_append] at size
      exact past found after nonempty matched
        (inductionHypothesis after.length (by omega) after rfl)
    · rw [List.length_cons] at size
      exact step symbol rest unmatched
        (inductionHypothesis rest.length (by omega) rest rfl)

theorem mem_findAll_iff
    (proper : Matcher.Proper matchAt)
    {found text : List α} :
    found ∈ findAll matchAt text ↔
      ∃ before after, text = before ++ found ++ after ∧
        Found matchAt before found after := by
  constructor
  · induction text using scan_induction proper with
    | empty =>
        intro member
        cases member
    | past first after nonempty matched inductionHypothesis =>
        intro member
        rw [findAll_of_match proper matched] at member
        cases member with
        | head =>
            exact ⟨[], after, rfl, .here matched⟩
        | tail _ later =>
            obtain ⟨before, rest, rfl, foundLater⟩ :=
              inductionHypothesis later
            exact ⟨first ++ before, rest, by simp, .past matched foundLater⟩
    | step symbol rest unmatched inductionHypothesis =>
        intro member
        rw [findAll_of_none unmatched] at member
        obtain ⟨before, after, rfl, foundLater⟩ :=
          inductionHypothesis member
        exact ⟨symbol :: before, after, by simp, .step unmatched foundLater⟩
  · rintro ⟨before, after, rfl, isFound⟩
    induction isFound with
    | here matched =>
        rw [List.nil_append, findAll_of_match proper matched]
        exact List.mem_cons_self
    | step unmatched _ inductionHypothesis =>
        rw [List.cons_append, List.cons_append, findAll_of_none unmatched]
        exact inductionHypothesis
    | past matched later inductionHypothesis =>
        rename_i earlier before found after
        have split :
            earlier ++ before ++ found ++ after =
              earlier ++ (before ++ found ++ after) := by simp
        rw [split, findAll_of_match proper matched]
        exact List.mem_cons_of_mem _ inductionHypothesis

theorem Found.matched
    (isFound : Found matchAt before found after) :
    matchAt (found ++ after) = some found.length := by
  induction isFound with
  | here matched =>
      exact matched
  | step _ _ inductionHypothesis | past _ _ inductionHypothesis =>
      exact inductionHypothesis

theorem exists_found
    (proper : Matcher.Proper matchAt)
    (front : List α)
    (matches' : (matchAt rest).isSome) :
    ∃ before found after,
      front ++ rest = before ++ found ++ after ∧
        Found matchAt before found after ∧
        before.length ≤ front.length ∧
        front.length < before.length + found.length := by
  generalize split : front ++ rest = text
  induction text using scan_induction proper generalizing front with
  | empty =>
      obtain ⟨rfl, rfl⟩ := List.append_eq_nil_iff.mp split
      obtain ⟨length, matched⟩ := Option.isSome_iff_exists.mp matches'
      have bounds := proper _ _ matched
      simp at bounds
      omega
  | past first after nonempty matched inductionHypothesis =>
      by_cases inside : front.length < first.length
      · exact ⟨[], first, after, rfl, .here matched, Nat.zero_le _,
          by simpa using inside⟩
      · obtain ⟨remaining, rfl⟩ :=
          List.prefix_of_prefix_length_le (List.prefix_append first after)
            (split ▸ List.prefix_append front rest) (not_lt.mp inside)
        rw [List.append_assoc] at split
        obtain ⟨before, found, last, rfl, isFound, low, high⟩ :=
          inductionHypothesis remaining (List.append_cancel_left split)
        refine ⟨first ++ before, found, last, by simp,
          .past matched isFound, ?_, ?_⟩
        · simpa using low
        · simp only [List.length_append]
          omega
  | step symbol others unmatched inductionHypothesis =>
      cases front with
      | nil =>
          rw [List.nil_append] at split
          rw [split, unmatched] at matches'
          cases matches'
      | cons first remaining =>
          rw [List.cons_append] at split
          obtain ⟨rfl, same⟩ := List.cons_eq_cons.mp split
          obtain ⟨before, found, last, rfl, isFound, low, high⟩ :=
            inductionHypothesis remaining same
          refine ⟨first :: before, found, last, by simp,
            .step unmatched isFound, ?_, ?_⟩
          · simpa using low
          · simp only [List.length_cons]
            omega

theorem Found.apart
    (first : Found matchAt before found after)
    {before' found' after' : List α}
    (second : Found matchAt before' found' after')
    (same : before ++ found ++ after = before' ++ found' ++ after') :
    (before = before' ∧ found = found') ∨
      before.length + found.length ≤ before'.length ∨
      before'.length + found'.length ≤ before.length := by
  induction first generalizing before' with
  | here matched =>
      cases second with
      | here matched' =>
          left
          rw [List.nil_append, List.nil_append] at same
          rw [same, matched', Option.some_inj] at matched
          exact ⟨rfl, List.append_inj_left same matched.symm⟩
      | step unmatched _ =>
          rw [List.nil_append] at same
          rw [same, List.cons_append, List.cons_append, unmatched] at matched
          cases matched
      | past matched' _ =>
          right; left
          rw [List.nil_append] at same
          rw [same, List.append_assoc, List.append_assoc,
            ← List.append_assoc _ found', matched', Option.some_inj]
            at matched
          simp [matched]
  | step unmatched first inductionHypothesis =>
      cases second with
      | here matched' =>
          rw [List.nil_append] at same
          rw [← same, List.cons_append, List.cons_append, unmatched]
            at matched'
          cases matched'
      | step unmatched' second =>
          simp only [List.cons_append, List.cons_eq_cons] at same
          obtain ⟨rfl, same⟩ := same
          obtain ⟨rfl, rfl⟩ | above | below :=
            inductionHypothesis second same
          · exact .inl ⟨rfl, rfl⟩
          · right; left
            simp only [List.length_cons]
            omega
          · right; right
            simp only [List.length_cons]
            omega
      | past matched' second =>
          rename_i earlier' before'
          have unfolded' :
              earlier' ++ before' ++ found' ++ after' =
                earlier' ++ (before' ++ found' ++ after') := by simp
          rw [List.cons_append, List.cons_append, unfolded'] at same
          rw [← same, unmatched] at matched'
          cases matched'
  | past matched first inductionHypothesis =>
      rename_i earlier before found after
      have unfolded :
          earlier ++ before ++ found ++ after =
            earlier ++ (before ++ found ++ after) := by simp
      rw [unfolded] at same
      cases second with
      | here matched' =>
          right; right
          rw [List.nil_append] at same
          rw [← same, matched, Option.some_inj] at matched'
          simp [matched']
      | step unmatched' _ =>
          rw [same, List.cons_append, List.cons_append, unmatched']
            at matched
          cases matched
      | past matched' second =>
          rename_i earlier' before'
          have unfolded' :
              earlier' ++ before' ++ found' ++ after' =
                earlier' ++ (before' ++ found' ++ after') := by simp
          rw [unfolded'] at same
          rw [same, matched', Option.some_inj] at matched
          obtain ⟨sameFront, sameRest⟩ := List.append_inj same matched.symm
          subst sameFront
          obtain ⟨rfl, rfl⟩ | above | below :=
            inductionHypothesis second sameRest
          · exact .inl ⟨rfl, rfl⟩
          · right; left
            simp only [List.length_append]
            omega
          · right; right
            simp only [List.length_append]
            omega

end Matches

section Replacing

variable [DecidableEq α] {pattern replacement : List α}

theorem replaceFrom_eq (skip : Nat) (text : List α) :
    replaceFrom pattern replacement skip text =
      replaceAll pattern replacement (text.drop skip) := by
  induction text generalizing skip with
  | nil =>
      cases skip with
      | zero =>
          rfl
      | succ skip =>
          rfl
  | cons symbol rest inductionHypothesis =>
      cases skip with
      | zero =>
          rfl
      | succ skip =>
          exact inductionHypothesis skip

@[simp] theorem replaceAll_nil :
    replaceAll pattern replacement [] = [] := rfl

theorem replaceAll_pattern
    (nonempty : pattern ≠ [])
    (after : List α) :
    replaceAll pattern replacement (pattern ++ after) =
      replacement ++ replaceAll pattern replacement after := by
  obtain ⟨symbol, rest, rfl⟩ := List.exists_cons_of_ne_nil nonempty
  rw [replaceAll, List.cons_append, replaceFrom, ← List.cons_append,
    if_pos (List.prefix_append _ _), replaceFrom_eq, List.length_cons,
    Nat.add_sub_cancel, List.drop_left]

variable {symbol : α} {rest : List α}

theorem replaceAll_other
    (other : ¬ pattern <+: symbol :: rest) :
    replaceAll pattern replacement (symbol :: rest) =
      symbol :: replaceAll pattern replacement rest := by
  rw [replaceAll, replaceFrom, if_neg other]
  rfl

theorem replace_induction
    (nonempty : pattern ≠ [])
    {motive : List α → Prop}
    (empty : motive [])
    (found : ∀ after, motive after → motive (pattern ++ after))
    (step :
      ∀ symbol rest, ¬ pattern <+: symbol :: rest →
        motive rest → motive (symbol :: rest))
    (text : List α) :
    motive text := by
  have positive := List.length_pos_of_ne_nil nonempty
  induction size : text.length using Nat.strong_induction_on
    generalizing text with
  | _ bound inductionHypothesis =>
    cases text with
    | nil =>
        exact empty
    | cons symbol rest =>
        by_cases front : pattern <+: symbol :: rest
        · obtain ⟨after, same⟩ := front
          rw [← same] at size ⊢
          rw [List.length_append] at size
          exact found after
            (inductionHypothesis after.length (by omega) after rfl)
        · rw [List.length_cons] at size
          exact step symbol rest front
            (inductionHypothesis rest.length (by omega) rest rfl)

/-- A reading that gives the replacement what it gives the pattern reads the
same text. -/
theorem flatMap_replaceAll
    {β : Type}
    (nonempty : pattern ≠ [])
    {read : α → List β}
    (same : replacement.flatMap read = pattern.flatMap read)
    (text : List α) :
    (replaceAll pattern replacement text).flatMap read =
      text.flatMap read := by
  induction text using replace_induction nonempty with
  | empty =>
      rfl
  | found after inductionHypothesis =>
      rw [replaceAll_pattern nonempty, List.flatMap_append,
        List.flatMap_append, same, inductionHypothesis]
  | step symbol rest other inductionHypothesis =>
      rw [replaceAll_other other, List.flatMap_cons,
        List.flatMap_cons, inductionHypothesis]

theorem mem_of_replaceAll
    (nonempty : pattern ≠ [])
    {text : List α}
    (member : symbol ∈ replaceAll pattern replacement text) :
    symbol ∈ text ∨ symbol ∈ replacement := by
  induction text using replace_induction nonempty with
  | empty =>
      exact .inl member
  | found after inductionHypothesis =>
      rw [replaceAll_pattern nonempty, List.mem_append] at member
      obtain new | later := member
      · exact .inr new
      · obtain old | new := inductionHypothesis later
        · exact .inl (List.mem_append_right _ old)
        · exact .inr new
  | step first rest other inductionHypothesis =>
      rw [replaceAll_other other, List.mem_cons] at member
      obtain rfl | later := member
      · exact .inl List.mem_cons_self
      · obtain old | new := inductionHypothesis later
        · exact .inl (List.mem_cons_of_mem _ old)
        · exact .inr new

theorem replaceAll_absent
    (nonempty : pattern ≠ [])
    {text : List α}
    (absent : ¬ pattern <:+: text) :
    replaceAll pattern replacement text = text := by
  induction text using replace_induction nonempty with
  | empty =>
      rfl
  | found after inductionHypothesis =>
      exact absurd (List.prefix_append pattern after).isInfix absent
  | step symbol rest other inductionHypothesis =>
      rw [replaceAll_other other, inductionHypothesis (fun later =>
        absent (later.trans (List.suffix_cons symbol rest).isInfix))]

/-- Replacing in two parts of a text, when no occurrence reaches from the
first into the second. -/
theorem replaceAll_append
    (nonempty : pattern ≠ [])
    {front rest : List α}
    (inside :
      ∀ first second, front = first ++ second → second ≠ [] →
        pattern <+: second ++ rest → pattern.length ≤ second.length) :
    replaceAll pattern replacement (front ++ rest) =
      replaceAll pattern replacement front ++
        replaceAll pattern replacement rest := by
  induction front using replace_induction nonempty with
  | empty =>
      rfl
  | found after inductionHypothesis =>
      rw [List.append_assoc, replaceAll_pattern nonempty,
        replaceAll_pattern nonempty, List.append_assoc,
        inductionHypothesis]
      intro first second split
      exact inside (pattern ++ first) second (by rw [split]; simp)
  | step symbol others other inductionHypothesis =>
      have notHere : ¬ pattern <+: symbol :: (others ++ rest) := by
        intro here
        have short := inside [] (symbol :: others) rfl (by simp) here
        exact other (List.prefix_of_prefix_length_le here
          (List.prefix_append (symbol :: others) rest) short)
      rw [List.cons_append, replaceAll_other notHere,
        replaceAll_other other, List.cons_append,
        inductionHypothesis]
      intro first second split
      exact inside (symbol :: first) second (by rw [split]; rfl)

theorem replaceAll_append_left
    (middle : List α)
    (untouched :
      ∀ first second, middle = first ++ second → second ≠ [] →
        ¬ pattern <+: second ++ rest) :
    replaceAll pattern replacement (middle ++ rest) =
      middle ++ replaceAll pattern replacement rest := by
  induction middle with
  | nil =>
      rfl
  | cons symbol others inductionHypothesis =>
      have notHere : ¬ pattern <+: symbol :: (others ++ rest) :=
        untouched [] (symbol :: others) rfl (by simp)
      rw [List.cons_append, replaceAll_other notHere,
        inductionHypothesis, List.cons_append]
      intro first second split
      exact untouched (symbol :: first) second (by rw [split]; rfl)

section OneSymbol

variable {token : α}

theorem prefix_of_prefix_replaceAll
    (nonempty : pattern ≠ [])
    {text part : List α}
    (plain : token ∉ part)
    (front : part <+: replaceAll pattern [token] text) :
    part <+: text := by
  induction part generalizing text with
  | nil =>
      exact List.nil_prefix
  | cons symbol part inductionHypothesis =>
      rw [List.mem_cons, not_or] at plain
      cases text with
      | nil =>
          exact front
      | cons first rest =>
          by_cases here : pattern <+: first :: rest
          · obtain ⟨after, same⟩ := here
            rw [← same, replaceAll_pattern nonempty,
              List.singleton_append, List.cons_prefix_cons] at front
            exact absurd front.1.symm plain.1
          · rw [replaceAll_other here, List.cons_prefix_cons] at front
            rw [List.cons_prefix_cons]
            exact ⟨front.1, inductionHypothesis plain.2 front.2⟩

theorem infix_of_infix_replaceAll
    (nonempty : pattern ≠ [])
    {text part : List α}
    (plain : token ∉ part)
    (inside : part <:+: replaceAll pattern [token] text) :
    part <:+: text := by
  induction text using replace_induction nonempty with
  | empty =>
      exact inside
  | found after inductionHypothesis =>
      rw [replaceAll_pattern nonempty, List.singleton_append,
        List.infix_cons_iff] at inside
      obtain front | later := inside
      · cases part with
        | nil =>
            exact List.nil_infix
        | cons symbol part =>
            rw [List.cons_prefix_cons] at front
            rw [List.mem_cons, not_or] at plain
            exact absurd front.1.symm plain.1
      · exact (inductionHypothesis later).trans
          (List.suffix_append pattern after).isInfix
  | step symbol rest other inductionHypothesis =>
      rw [replaceAll_other other, List.infix_cons_iff] at inside
      obtain front | later := inside
      · rw [← replaceAll_other other] at front
        exact (prefix_of_prefix_replaceAll nonempty plain front).isInfix
      · exact (inductionHypothesis later).trans
          (List.suffix_cons symbol rest).isInfix

theorem not_infix_replaceAll
    (nonempty : pattern ≠ [])
    (plain : token ∉ pattern)
    (text : List α) :
    ¬ pattern <:+: replaceAll pattern [token] text := by
  induction text using replace_induction nonempty with
  | empty =>
      intro inside
      exact nonempty (List.infix_nil.mp inside)
  | found after inductionHypothesis =>
      intro inside
      rw [replaceAll_pattern nonempty, List.singleton_append,
        List.infix_cons_iff] at inside
      obtain front | later := inside
      · obtain ⟨symbol, rest, rfl⟩ := List.exists_cons_of_ne_nil nonempty
        rw [List.cons_prefix_cons] at front
        rw [List.mem_cons, not_or] at plain
        exact plain.1 front.1.symm
      · exact inductionHypothesis later
  | step symbol rest other inductionHypothesis =>
      intro inside
      rw [replaceAll_other other, List.infix_cons_iff] at inside
      obtain front | later := inside
      · rw [← replaceAll_other other] at front
        exact other (prefix_of_prefix_replaceAll nonempty plain front)
      · exact inductionHypothesis later

end OneSymbol

end Replacing

section BeforeLast

variable [DecidableEq α]

variable {symbol : α} {text : List α}

theorem rsplitOnce_eq_none_iff :
    rsplitOnce symbol text = none ↔ symbol ∉ text := by
  induction text with
  | nil =>
      simp [rsplitOnce]
  | cons first rest inductionHypothesis =>
      rw [rsplitOnce, List.mem_cons, not_or, ← inductionHypothesis]
      cases rsplitOnce symbol rest with
      | some parts =>
          simp
      | none =>
          by_cases same : first = symbol
          · simp [same]
          · simp [same, Ne.symm same]

/-- The text is what stands before the last symbol, the symbol, and a rest
without it. -/
theorem of_rsplitOnce
    {text before after : List α}
    (split : rsplitOnce symbol text = some (before, after)) :
    text = before ++ symbol :: after ∧ symbol ∉ after := by
  induction text generalizing before with
  | nil =>
      cases split
  | cons first rest inductionHypothesis =>
      rw [rsplitOnce] at split
      cases later : rsplitOnce symbol rest with
      | some parts =>
          rw [later] at split
          cases split
          obtain ⟨same, absent⟩ := inductionHypothesis later
          exact ⟨by rw [List.cons_append, ← same], absent⟩
      | none =>
          rw [later] at split
          dsimp only at split
          split at split
          · rename_i same
            cases split
            exact ⟨by rw [same]; rfl, rsplitOnce_eq_none_iff.mp later⟩
          · cases split

theorem rsplitOnce_append
    (before : List α)
    {after : List α}
    (absent : symbol ∉ after) :
    rsplitOnce symbol (before ++ symbol :: after) =
      some (before, after) := by
  induction before with
  | nil =>
      rw [List.nil_append, rsplitOnce, rsplitOnce_eq_none_iff.mpr absent]
      simp
  | cons first before inductionHypothesis =>
      rw [List.cons_append, rsplitOnce, inductionHypothesis]

/-- What stands before the last symbol ends the text or stands before the
symbol. -/
theorem beforeLast_cases (symbol : α) (text : List α) :
    (symbol ∉ text ∧ beforeLast symbol text = text) ∨
      ∃ after, text = beforeLast symbol text ++ symbol :: after ∧
        symbol ∉ after := by
  cases split : rsplitOnce symbol text with
  | none =>
      left
      exact ⟨rsplitOnce_eq_none_iff.mp split, by rw [beforeLast, split]⟩
  | some parts =>
      obtain ⟨same, absent⟩ := of_rsplitOnce split
      right
      exact ⟨parts.2, by rw [beforeLast, split]; exact same, absent⟩

/-- A reading that keeps the symbol and brings in no other one keeps what
stands before the last. -/
theorem flatMap_beforeLast
    {β : Type} [DecidableEq β]
    {read : α → List β}
    {image : β}
    (kept : read symbol = [image])
    (others : ∀ other ∈ text, other ≠ symbol → image ∉ read other) :
    (beforeLast symbol text).flatMap read =
      beforeLast image (text.flatMap read) := by
  have imageless (part : List α) (inside : part ⊆ text)
      (absent : symbol ∉ part) : image ∉ part.flatMap read := by
    intro member
    obtain ⟨other, listed, from'⟩ := List.mem_flatMap.mp member
    exact others other (inside listed)
      (fun same => absent (same ▸ listed)) from'
  obtain ⟨absent, whole⟩ | ⟨after, split, absent⟩ :=
    beforeLast_cases symbol text
  · rw [whole, beforeLast, rsplitOnce_eq_none_iff.mpr
      (imageless text (List.Subset.refl text) absent)]
  · have afterless : image ∉ after.flatMap read :=
      imageless after (by rw [split]; simp) absent
    conv_rhs =>
      rw [split, List.flatMap_append, List.flatMap_cons, kept,
        List.singleton_append, beforeLast, rsplitOnce_append _ afterless]

end BeforeLast

end Bwk.TextSearch
