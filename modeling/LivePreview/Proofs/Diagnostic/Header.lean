import LivePreview.Diagnostic.ShortForm
import LivePreview.Proofs.Text.Cuts
import LivePreview.Proofs.Text.Digits
import Mathlib.Data.List.Basic
import Mathlib.Data.List.TakeDrop
import Mathlib.Data.List.TakeWhile

/-!
# Headers

The pattern of a header is a file, two numerals, a severity and a message with fixed
punctuation between them (`Header.Opens`).  A line may fit it in several ways; the one that
is read has the shortest file, and a hint is no header even if it fits
(`lineHeader?_eq_some_iff`).
-/

namespace LivePreview.ShortForm

open Text

variable {cs rest digits line : List Char} {h : Header}

/-! ## Numbers -/

theorem span_digits (plain : ∀ c ∈ digits, isDecimalDigit c)
    (ends : ∀ c ∈ rest.head?, isDecimalDigit c = false) :
    (digits ++ rest).span isDecimalDigit = (digits, rest) := by
  rw [List.span_eq_takeWhile_dropWhile, takeWhile_run plain ends, dropWhile_run plain ends]

theorem number?_append (numeral : IsNumeral digits)
    (ends : ∀ c ∈ rest.head?, isDecimalDigit c = false) :
    number? (':' :: (digits ++ rest)) = some (digits, rest) := by
  unfold number?
  simp only [span_digits numeral.2 ends]
  split
  · next none => exact absurd (congrArg Prod.fst none) numeral.1
  · rfl

theorem of_number? (read : number? cs = some (digits, rest)) :
    cs = ':' :: (digits ++ rest) ∧ IsNumeral digits := by
  unfold number? at read
  split at read
  · next cs =>
    rw [List.span_eq_takeWhile_dropWhile] at read
    split at read
    · cases read
    · next some =>
      simp only [Option.some.injEq, Prod.mk.injEq] at read
      obtain ⟨rfl, rfl⟩ := read
      refine ⟨by rw [List.takeWhile_append_dropWhile], fun none => ?_, ?_⟩
      · exact some _ (by rw [none])
      · exact fun c mem => List.mem_takeWhile_imp mem
  · cases read

/-! ## The pattern -/

namespace Header

/-- What a header says of a place, behind the name of the file. -/
def placeChars (h : Header) : List Char :=
  ':' :: (h.line ++ ':' :: (h.column ++ (": ".toList ++
    (h.severity.label.toList ++ (": ".toList ++ h.message)))))

/-- Whether a line reads as these parts with the punctuation of a header between them. -/
structure Opens (h : Header) (cs : List Char) : Prop where
  file : h.file ≠ []
  line : IsNumeral h.line
  column : IsNumeral h.column
  chars : cs = h.file ++ h.placeChars

end Header

theorem dropBeginning?_eq_some_iff {beginning : List Char} :
    dropBeginning? beginning cs = some rest ↔ beginning ++ rest = cs :=
  List.isPrefixOf?_eq_some_iff_append_eq

theorem severity?_append (severity : Severity) (message : List Char) :
    severity? (severity.label.toList ++ (": ".toList ++ message)) = some (severity, message) := by
  cases severity <;> rfl

theorem of_severity? {severity : Severity} {message : List Char}
    (read : severity? cs = some (severity, message)) :
    cs = severity.label.toList ++ (": ".toList ++ message) := by
  unfold severity? at read
  split at read
  · next found =>
    simp only [Option.some.injEq, Prod.mk.injEq] at read
    obtain ⟨rfl, rfl⟩ := read
    exact (dropBeginning?_eq_some_iff.mp found).symm
  · obtain ⟨rest, found, same⟩ := Option.map_eq_some_iff.mp read
    simp only [Prod.mk.injEq] at same
    obtain ⟨rfl, rfl⟩ := same
    exact (dropBeginning?_eq_some_iff.mp found).symm

theorem position?_placeChars (line : IsNumeral h.line) (column : IsNumeral h.column) :
    position? h.placeChars = some { h with file := [] } := by
  have colon (rest : List Char) : ∀ c ∈ (':' :: rest).head?, isDecimalDigit c = false := by
    simp only [List.head?_cons, Option.mem_def, Option.some.injEq, forall_eq']
    decide
  simp only [position?, Option.bind_eq_bind, Option.bind_eq_some_iff, Prod.exists]
  exact ⟨_, _, number?_append line (colon _), _, _, number?_append column (colon _), _,
    dropBeginning?_eq_some_iff.mpr rfl, _, _, severity?_append _ _, rfl⟩

theorem of_position? (read : position? cs = some h) :
    h.file = [] ∧ IsNumeral h.line ∧ IsNumeral h.column ∧ cs = h.placeChars := by
  simp only [position?, Option.bind_eq_bind, Option.bind_eq_some_iff, Prod.exists] at read
  obtain ⟨line, afterLine, first, column, afterColumn, second, place, space, severity, message,
    third, rest⟩ := read
  obtain rfl := Option.some.inj rest
  obtain ⟨rfl, lineNumeral⟩ := of_number? first
  obtain ⟨rfl, columnNumeral⟩ := of_number? second
  obtain rfl := dropBeginning?_eq_some_iff.mp space
  obtain rfl := of_severity? third
  exact ⟨rfl, lineNumeral, columnNumeral, rfl⟩

/-! ## The shortest file -/

theorem Header.Opens.cons_cases {c : Char} (opens : h.Opens (c :: cs)) :
    h.file = [c] ∧ cs = h.placeChars ∨ ∃ file, h.file = c :: file ∧ { h with file }.Opens cs := by
  obtain ⟨some, line, column, chars⟩ := opens
  cases parts : h.file with
  | nil => exact absurd parts some
  | cons d file =>
    rw [parts, List.cons_append] at chars
    obtain ⟨rfl, rest⟩ := List.cons.inj chars
    by_cases short : file = []
    · subst short
      exact .inl ⟨rfl, rest⟩
    · exact .inr ⟨file, rfl, short, line, column, rest⟩

theorem opens_of_header? (read : header? cs = some h) : h.Opens cs := by
  induction cs generalizing h with
  | nil => cases read
  | cons c cs ih =>
    unfold header? at read
    split at read
    · next place found =>
      obtain rfl := Option.some.inj read
      obtain ⟨-, line, column, chars⟩ := of_position? found
      exact ⟨by simp, line, column, congrArg (c :: ·) chars⟩
    · next none =>
      obtain ⟨inner, found, rfl⟩ := Option.map_eq_some_iff.mp read
      obtain ⟨-, line, column, chars⟩ := ih found
      exact ⟨by simp, line, column, congrArg (c :: ·) chars⟩

/-- A line that fits the pattern is read, with a file that is no longer than another one
    that fits. -/
theorem Header.Opens.header? (opens : h.Opens cs) :
    ∃ first, header? cs = some first ∧ first.file.length ≤ h.file.length := by
  induction cs generalizing h with
  | nil =>
    have none := List.append_eq_nil_iff.mp opens.chars.symm
    exact absurd none.1 opens.file
  | cons c cs ih =>
    unfold ShortForm.header?
    split
    · exact ⟨_, rfl, List.length_pos_iff.mpr opens.file⟩
    · next none =>
      rcases opens.cons_cases with ⟨-, rfl⟩ | ⟨file, long, more⟩
      · rw [position?_placeChars opens.line opens.column] at none
        cases none
      · obtain ⟨first, found, shorter⟩ := ih more
        refine ⟨_, by rw [found]; rfl, ?_⟩
        rw [long]
        exact Nat.succ_le_succ shorter

/-- Two ways to read a line with files of one length are the same. -/
theorem Header.Opens.unique {other : Header} (opens : h.Opens cs) (others : other.Opens cs)
    (same : h.file.length = other.file.length) : h = other := by
  -- the files are cut off at one place, and what is behind them is read in one way
  obtain ⟨files, places⟩ := List.append_inj (opens.chars.symm.trans others.chars) same
  have read := position?_placeChars opens.line opens.column
  rw [places, position?_placeChars others.line others.column] at read
  obtain ⟨file, line, column, severity, message⟩ := h
  obtain ⟨file', line', column', severity', message'⟩ := other
  simp only [Option.some.injEq, Header.mk.injEq] at read
  obtain ⟨-, rfl, rfl, rfl, rfl⟩ := read
  obtain rfl : file' = file := files.symm
  rfl

/-- The header of a line is the way to read it that has the shortest file. -/
theorem header?_eq_some_iff : header? cs = some h ↔
    h.Opens cs ∧ ∀ other : Header, other.Opens cs → h.file.length ≤ other.file.length := by
  constructor
  · intro read
    refine ⟨opens_of_header? read, fun other opens => ?_⟩
    obtain ⟨first, found, shorter⟩ := opens.header?
    rw [read] at found
    rwa [Option.some.inj found]
  · rintro ⟨opens, shortest⟩
    obtain ⟨first, found, shorter⟩ := opens.header?
    have firstOpens := opens_of_header? found
    rw [found, firstOpens.unique opens (Nat.le_antisymm shorter (shortest _ firstOpens))]

/-! ## Hints and headers -/

/-- What a line hints at, if it is a hint. -/
def hint? (line : List Char) : Option String :=
  (dropBeginning? "hint: ".toList (trim line)).map String.ofList

/-- A line that is no hint and fits the pattern of a header. -/
def IsHeader (line : List Char) : Prop :=
  hint? line = none ∧ ∃ h : Header, h.Opens line

/-- Whether a header is that of a line: there is no other way to read it with a shorter
    file. -/
structure Header.Leads (h : Header) (line : List Char) : Prop where
  noHint : hint? line = none
  opens : h.Opens line
  shortest : ∀ other : Header, other.Opens line → h.file.length ≤ other.file.length

def lineHeader? (line : List Char) : Option Header :=
  if (hint? line).isSome then none else header? line

theorem lineHeader?_of_hint {hint : String} (reads : hint? line = some hint) :
    lineHeader? line = none := by
  rw [lineHeader?, reads, Option.isSome_some, if_pos rfl]

theorem lineHeader?_of_noHint (reads : hint? line = none) : lineHeader? line = header? line := by
  rw [lineHeader?, reads, Option.isSome_none, if_neg Bool.false_ne_true]

theorem lineHeader?_eq_some_iff : lineHeader? line = some h ↔ h.Leads line := by
  cases reads : hint? line with
  | some hint =>
    rw [lineHeader?_of_hint reads]
    refine iff_of_false nofun fun leads => ?_
    rw [leads.noHint] at reads
    cases reads
  | none =>
    rw [lineHeader?_of_noHint reads, header?_eq_some_iff]
    exact ⟨fun ⟨opens, shortest⟩ => ⟨reads, opens, shortest⟩,
      fun leads => ⟨leads.opens, leads.shortest⟩⟩

theorem isHeader_iff : IsHeader line ↔ ∃ h, lineHeader? line = some h := by
  constructor
  · rintro ⟨reads, h, opens⟩
    obtain ⟨first, found, -⟩ := opens.header?
    exact ⟨first, (lineHeader?_of_noHint reads).trans found⟩
  · rintro ⟨h, found⟩
    have leads := lineHeader?_eq_some_iff.mp found
    exact ⟨leads.noHint, h, leads.opens⟩

instance : DecidablePred IsHeader := fun line =>
  decidable_of_iff (lineHeader? line).isSome (by rw [isHeader_iff, Option.isSome_iff_exists])

end LivePreview.ShortForm
