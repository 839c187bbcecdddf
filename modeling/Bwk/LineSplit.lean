import Mathlib.Data.List.DropRight

namespace Bwk.Lines

/-!
# Cutting a stream into lines

A line is what stands up to and including a separator.  A reader that takes one
line after another from a buffer sees the lines of the whole stream, however
the stream reaches the buffer.
-/

variable {Symbol : Type} [DecidableEq Symbol]
variable {separator : Symbol}

/-- The first line of a buffer and what follows it. -/
def takeLine
    (separator : Symbol)
    (buf : List Symbol) : Option (List Symbol × List Symbol) :=
  (buf.findIdx? (· = separator)).map fun pos =>
    (buf.take (pos + 1), buf.drop (pos + 1))

/-- Take at most some number of lines, one after another. -/
def takeLines
    (separator : Symbol) :
    Nat → List Symbol → List (List Symbol) × List Symbol
  | 0, buf => ([], buf)
  | most + 1, buf =>
      match takeLine separator buf with
      | none => ([], buf)
      | some (line, rest) =>
          let (lines, left) := takeLines separator most rest
          (line :: lines, left)

/-- All the lines of a stream and what follows the last of them. -/
def split (separator : Symbol) : List Symbol → List (List Symbol) × List Symbol
  | [] => ([], [])
  | symbol :: later =>
      if symbol = separator then
        ([symbol] :: (split separator later).1, (split separator later).2)
      else
        match (split separator later).1 with
        | [] => ([], symbol :: (split separator later).2)
        | line :: lines =>
            ((symbol :: line) :: lines, (split separator later).2)

/-- Nothing is lost. -/
theorem flatten_split (stream : List Symbol) :
    (split separator stream).1.flatten ++ (split separator stream).2 =
      stream := by
  induction stream with
  | nil =>
      rfl
  | cons symbol later inductionHypothesis =>
      rw [split]
      split
      · simp [inductionHypothesis]
      · split
        · next cut =>
          rw [cut] at inductionHypothesis
          exact congrArg (symbol :: ·) inductionHypothesis
        · next line lines cut =>
          rw [cut] at inductionHypothesis
          exact congrArg (symbol :: ·) inductionHypothesis

/-- What follows the last line has no separator. -/
theorem not_mem_split (stream : List Symbol) :
    separator ∉ (split separator stream).2 := by
  induction stream with
  | nil =>
      exact List.not_mem_nil
  | cons symbol later inductionHypothesis =>
      rw [split]
      split
      · exact inductionHypothesis
      · next other =>
        split
        · rw [List.mem_cons, not_or]
          exact ⟨Ne.symm other, inductionHypothesis⟩
        · exact inductionHypothesis

/-- Every line ends with a separator, and has no other. -/
theorem line_of_mem_split
    {stream line : List Symbol}
    (listed : line ∈ (split separator stream).1) :
    ∃ body, line = body ++ [separator] ∧ separator ∉ body := by
  induction stream generalizing line with
  | nil =>
      cases listed
  | cons symbol later inductionHypothesis =>
      rw [split] at listed
      split at listed
      · next same =>
        rcases List.mem_cons.mp listed with rfl | listed
        · exact ⟨[], by rw [same, List.nil_append], List.not_mem_nil⟩
        · exact inductionHypothesis listed
      · next other =>
        split at listed
        · cases listed
        · next first lines cut =>
          rw [cut] at inductionHypothesis
          rcases List.mem_cons.mp listed with rfl | listed
          · obtain ⟨body, rfl, clean⟩ :=
              inductionHypothesis List.mem_cons_self
            refine ⟨symbol :: body, rfl, ?_⟩
            rw [List.mem_cons, not_or]
            exact ⟨Ne.symm other, clean⟩
          · exact inductionHypothesis (List.mem_cons_of_mem _ listed)

/-- A stream that goes on: what followed its last line starts the next one. -/
theorem split_append (stream later : List Symbol) :
    split separator (stream ++ later) =
      ((split separator stream).1 ++
          (split separator ((split separator stream).2 ++ later)).1,
        (split separator ((split separator stream).2 ++ later)).2) := by
  induction stream with
  | nil =>
      rfl
  | cons symbol stream inductionHypothesis =>
      rw [List.cons_append, split, inductionHypothesis]
      by_cases same : symbol = separator
      · simp [split, same]
      · cases lines : (split separator stream).1 with
        | nil | cons line lines =>
            simp [split, same, lines]

theorem split_of_not_mem
    {stream : List Symbol}
    (clean : separator ∉ stream) :
    split separator stream = ([], stream) := by
  induction stream with
  | nil =>
      rfl
  | cons symbol later inductionHypothesis =>
      rw [List.mem_cons, not_or] at clean
      rw [split, if_neg (Ne.symm clean.1), inductionHypothesis clean.2]

theorem split_line
    {body : List Symbol}
    (clean : separator ∉ body)
    (later : List Symbol) :
    split separator (body ++ separator :: later) =
      ((body ++ [separator]) :: (split separator later).1,
        (split separator later).2) := by
  induction body with
  | nil =>
      simp [split]
  | cons symbol body inductionHypothesis =>
      rw [List.mem_cons, not_or] at clean
      rw [List.cons_append, split, if_neg (Ne.symm clean.1),
        inductionHypothesis clean.2]
      rfl

/-- The lines of a stream are what stands up to its last separator. -/
theorem flatten_lines (stream : List Symbol) :
    (split separator stream).1.flatten =
      stream.rdropWhile (· ≠ separator) := by
  induction stream using List.reverseRecOn with
  | nil =>
      rfl
  | append_singleton stream symbol inductionHypothesis =>
      have clean := @not_mem_split _ _ separator stream
      rw [split_append, List.rdropWhile_concat, List.flatten_append]
      by_cases same : symbol = separator
      · rw [same, split_line clean, if_neg (by simp)]
        simp [split, ← List.append_assoc, flatten_split]
      · have goesOn : separator ∉ (split separator stream).2 ++ [symbol] := by
          simp [clean, Ne.symm same]
        rw [split_of_not_mem goesOn, if_pos (by simpa using same),
          inductionHypothesis]
        exact List.append_nil _

theorem takeLine_eq_none_iff {buf : List Symbol} :
    takeLine separator buf = none ↔ separator ∉ buf := by
  rw [takeLine, Option.map_eq_none_iff, List.findIdx?_eq_none_iff]
  constructor
  · intro others present
    exact absurd (others separator present) (by simp)
  · rintro absent symbol present
    rw [decide_eq_false_iff_not]
    rintro rfl
    exact absent present

theorem takeLine_eq_some
    {buf line rest : List Symbol}
    (taken : takeLine separator buf = some (line, rest)) :
    ∃ body, line = body ++ [separator] ∧ separator ∉ body ∧
      buf = body ++ separator :: rest := by
  induction buf generalizing line with
  | nil =>
      cases taken
  | cons symbol later inductionHypothesis =>
      rw [takeLine, List.findIdx?_cons] at taken
      by_cases same : symbol = separator
      · simp only [same, decide_true, if_true, Option.map_some,
          List.take_succ_cons, List.take_zero, List.drop_succ_cons,
          List.drop_zero, Option.some.injEq, Prod.mk.injEq] at taken
        obtain ⟨rfl, rfl⟩ := taken
        exact ⟨[], rfl, List.not_mem_nil, by rw [same, List.nil_append]⟩
      · simp only [same, decide_false, Bool.false_eq_true, if_false,
          Option.map_map] at taken
        obtain ⟨pos, found, cut⟩ := Option.map_eq_some_iff.mp taken
        cases cut
        obtain ⟨body, line, clean, split⟩ :=
          @inductionHypothesis (later.take (pos + 1))
            (by rw [takeLine, found]; rfl)
        refine ⟨symbol :: body, congrArg (symbol :: ·) line, ?_,
          congrArg (symbol :: ·) split⟩
        rw [List.mem_cons, not_or]
        exact ⟨Ne.symm same, clean⟩

theorem split_of_takeLine
    {buf line rest : List Symbol}
    (taken : takeLine separator buf = some (line, rest)) :
    split separator buf =
      (line :: (split separator rest).1, (split separator rest).2) := by
  obtain ⟨body, rfl, clean, rfl⟩ := takeLine_eq_some taken
  exact split_line clean rest

theorem takeLines_eq_split
    {most : Nat}
    {buf : List Symbol}
    (enough : buf.length ≤ most) :
    takeLines separator most buf = split separator buf := by
  induction most generalizing buf with
  | zero =>
      rw [List.eq_nil_of_length_eq_zero (Nat.le_zero.mp enough)]
      rfl
  | succ most inductionHypothesis =>
      rw [takeLines]
      split
      · next none =>
        exact (split_of_not_mem (takeLine_eq_none_iff.mp none)).symm
      · next line rest taken =>
        obtain ⟨body, _, _, whole⟩ := takeLine_eq_some taken
        rw [split_of_takeLine taken, inductionHypothesis]
        rw [whole, List.length_append, List.length_cons] at enough
        omega

end Bwk.Lines
