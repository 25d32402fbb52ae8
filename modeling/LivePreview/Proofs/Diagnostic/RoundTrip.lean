import LivePreview.Proofs.Diagnostic.Report
import LivePreview.Proofs.Diagnostic.Rows
import LivePreview.Proofs.Texts
import Mathlib.Tactic.MkIffOfInductiveProp

/-!
# Reading what was written

Diagnostics that are printed in the short form are read as they were (`read_write`).  Each one
is written as a header and its hints (`writtenLines`).  A name without colons is the shortest
file of its header, whatever the message looks like (`writtenHeader_leads`), and a hint is read
as a hint, whatever it says (`hint?_hintLine`).
-/

namespace LivePreview.Text

variable {cs as bs : List Char}

theorem trimEnd_append (some : trimEnd bs ≠ []) : trimEnd (as ++ bs) = as ++ trimEnd bs := by
  have more : (bs.reverse.dropWhile isWhite).isEmpty = false := by
    rw [trimEnd, ne_eq, List.reverse_eq_nil_iff] at some
    exact List.isEmpty_eq_false_iff.mpr some
  rw [trimEnd, List.reverse_append, List.dropWhile_append, more, if_neg Bool.false_ne_true,
    List.reverse_append, List.reverse_reverse, trimEnd]

theorem trimEnd_prefix_self (cs : List Char) : trimEnd cs <+: cs := by
  rw [← List.reverse_suffix, trimEnd, List.reverse_reverse]
  exact List.dropWhile_suffix _

theorem isWhite_getLast? (ended : trimEnd cs = cs) : ∀ c ∈ cs.getLast?, isWhite c = false := by
  rw [trimEnd, List.reverse_eq_iff, List.dropWhile_eq_self_iff] at ended
  intro c last
  obtain ⟨front, rfl⟩ := List.getLast?_eq_some_iff.mp last
  simpa using ended

theorem trimStart_append_colon (name rest : List Char) :
    trimStart (name ++ ':' :: rest) = trimStart name ++ ':' :: rest := by
  have colon : isWhite ':' = false := by decide
  rw [trimStart, List.dropWhile_append, trimStart]
  split
  · next none =>
    rw [List.isEmpty_iff.mp none, List.dropWhile_cons, colon]
    rfl
  · rfl

end LivePreview.Text

namespace LivePreview.ShortForm

open Text

variable {document : Path} {d : Diagnostic} {ds : List Diagnostic} {hint : String}

/-! ## What can be written -/

/-- Whether a text stays on its line and holds no beginning of a colour. -/
def IsPlain (cs : List Char) : Prop :=
  '\n' ∉ cs ∧ '\x1b' ∉ cs

instance : DecidablePred IsPlain := fun _ => inferInstanceAs (Decidable (_ ∧ _))

/-- A path that can be read in front of a place. -/
@[mk_iff]
structure IsName (document : Path) : Prop where
  some : document.text ≠ ""
  noColon : ':' ∉ document.text.toList
  plain : IsPlain document.text.toList
  noDots : ¬ "./".toList <+: document.text.toList

@[mk_iff]
structure IsHint (hint : String) : Prop where
  plain : IsPlain hint.toList
  nonBlank : trim hint.toList ≠ []
  ended : trimEnd hint.toList = hint.toList

/-- A diagnostic at one place whose texts stay on their lines. -/
@[mk_iff]
structure IsPrintable (d : Diagnostic) : Prop where
  point : d.location = .point d.location.line d.location.column
  line : d.location.line < wordLimit
  column : d.location.column < wordLimit
  message : IsPlain d.message.toList
  ended : d.message.toList.getLast? ≠ some '\r'
  hints : ∀ hint ∈ d.hints, IsHint hint

instance : DecidablePred IsName := fun _ => decidable_of_iff _ (isName_iff _).symm

instance : DecidablePred IsHint := fun _ => decidable_of_iff _ (isHint_iff _).symm

instance : DecidablePred IsPrintable := fun _ => decidable_of_iff _ (isPrintable_iff _).symm

@[simp] theorem isPlain_append {as bs : List Char} :
    IsPlain (as ++ bs) ↔ IsPlain as ∧ IsPlain bs := by
  simp only [IsPlain, List.mem_append]
  tauto

@[simp] theorem isPlain_cons {c : Char} {cs : List Char} :
    IsPlain (c :: cs) ↔ (c ≠ '\n' ∧ c ≠ '\x1b') ∧ IsPlain cs := by
  simp only [IsPlain, List.mem_cons]
  tauto

theorem isPlain_of_isNumeral {cs : List Char} (numeral : IsNumeral cs) : IsPlain cs := by
  constructor
  · intro feed
    exact absurd (numeral.2 _ feed) (by decide)
  · intro escape
    exact absurd (numeral.2 _ escape) (by decide)

/-! ## Hints -/

def hintLine (hint : String) : List Char :=
  ' ' :: ' ' :: ("hint: ".toList ++ hint.toList)

theorem IsHint.ne_nil (isHint : IsHint hint) : hint.toList ≠ [] := by
  intro none
  have blank := isHint.nonBlank
  rw [none] at blank
  exact blank rfl

theorem hint?_hintLine (isHint : IsHint hint) : hint? (hintLine hint) = some hint := by
  have start : trimStart (hintLine hint) = "hint: ".toList ++ hint.toList := rfl
  have some : trimEnd hint.toList ≠ [] := by
    rw [isHint.ended]
    exact isHint.ne_nil
  have cut : dropBeginning? "hint: ".toList ("hint: ".toList ++ hint.toList) = .some hint.toList :=
    dropBeginning?_eq_some_iff.mpr rfl
  rw [hint?, trim, start, trimEnd_append some, isHint.ended, cut, Option.map_some,
    String.ofList_toList]

theorem isPlain_hintLine (isHint : IsHint hint) : IsPlain (hintLine hint) := by
  simp only [hintLine, isPlain_cons, isPlain_append]
  exact ⟨by decide, by decide, by decide, isHint.plain⟩

theorem getLast?_hintLine (isHint : IsHint hint) : (hintLine hint).getLast? ≠ some '\r' := by
  have front : hintLine hint = "  hint: ".toList ++ hint.toList := rfl
  rw [front, List.getLast?_append_of_ne_nil _ isHint.ne_nil]
  intro last
  exact absurd (isWhite_getLast? isHint.ended _ last) (by decide)

/-- A hint has a blank behind its first colon. -/
theorem hint?_append_colon {name rest : List Char} {c : Char} (noColon : ':' ∉ name)
    (noBlank : c ≠ ' ') : hint? (name ++ ':' :: c :: rest) = none := by
  rw [hint?, Option.map_eq_none_iff, Option.eq_none_iff_forall_ne_some]
  intro text reads
  have begins : "hint: ".toList <+: trim (name ++ ':' :: c :: rest) :=
    ⟨text, dropBeginning?_eq_some_iff.mp reads⟩
  obtain ⟨more, same⟩ := begins.trans (trimEnd_prefix_self _)
  have plain : ∀ d ∈ trimStart name, decide (d ≠ ':') = true := by
    intro d mem
    refine decide_eq_true fun colon => noColon ?_
    exact (List.dropWhile_sublist _).subset (colon ▸ mem)
  rw [trimStart_append_colon] at same
  have behind := congrArg (List.dropWhile (· ≠ ':')) same
  rw [List.dropWhile_append_of_pos plain] at behind
  have blank : ':' :: ' ' :: more = ':' :: c :: rest := behind
  exact noBlank (List.cons.inj (List.cons.inj blank).2).1.symm

/-! ## Headers -/

/-- The header that is written for a diagnostic. -/
def writtenHeader (document : Path) (d : Diagnostic) : Header where
  file := document.text.toList
  line := Nat.toDigits 10 d.location.line
  column := Nat.toDigits 10 d.location.column
  severity := d.severity
  message := d.message.toList

def headerLine (document : Path) (d : Diagnostic) : List Char :=
  document.text.toList ++ (writtenHeader document d).placeChars

theorem hint?_headerLine (name : IsName document) (d : Diagnostic) :
    hint? (headerLine document d) = none := by
  have numeral := isNumeral_toDigits d.location.line
  rw [headerLine, Header.placeChars, writtenHeader]
  cases digits : Nat.toDigits 10 d.location.line with
  | nil => exact absurd digits numeral.1
  | cons c cs =>
    have digit : isDecimalDigit c := numeral.2 c (digits ▸ List.mem_cons_self)
    refine hint?_append_colon name.noColon ?_
    rintro rfl
    exact absurd digit (by decide)

/-- A name without colons in front of a place cannot be read as a shorter file. -/
theorem length_le_of_opens {name rest : List Char} {h : Header} (noColon : ':' ∉ name)
    (opens : h.Opens (name ++ ':' :: rest)) : name.length ≤ h.file.length := by
  rcases List.append_eq_append_iff.mp opens.chars with ⟨more, longer, -⟩ | ⟨more, cut, place⟩
  · rw [longer, List.length_append]
    exact Nat.le_add_right ..
  · cases more with
    | nil => rw [cut, List.append_nil]
    | cons c more =>
      -- the file would end within the name, in front of a colon
      obtain ⟨rfl, -⟩ := List.cons.inj place
      rw [cut] at noColon
      exact absurd (List.mem_append_right _ List.mem_cons_self) noColon

/-- The header that was written is the one that is read, whatever the message looks like. -/
theorem writtenHeader_leads (name : IsName document) (d : Diagnostic) :
    (writtenHeader document d).Leads (headerLine document d) where
  noHint := hint?_headerLine name d
  opens :=
    { file := fun none => name.some (String.toList_eq_nil_iff.mp none)
      line := isNumeral_toDigits _
      column := isNumeral_toDigits _
      chars := rfl }
  shortest := fun _ => length_le_of_opens name.noColon

theorem concerns_self (noDots : ¬ "./".toList <+: document.text.toList) :
    concerns document document.text.toList := by
  have same : concerns.dropDots document.text.toList = document.text.toList := by
    unfold concerns.dropDots
    split
    · next rest dots => exact absurd ⟨rest, dots.symm⟩ noDots
    · rfl
  rw [concerns, same, String.ofList_toList, Path.same_refl, Bool.true_or]

theorem writtenHeader_draft? (name : IsName document) (printable : IsPrintable d) :
    (writtenHeader document d).draft? document = some { d with hints := [] } := by
  have own := concerns_self name.noDots
  simp [Header.draft?, writtenHeader, word?_toDigits printable.line,
    word?_toDigits printable.column, own, ← printable.point]

theorem isPlain_headerLine (name : IsName document) (printable : IsPrintable d) :
    IsPlain (headerLine document d) := by
  have label : IsPlain d.severity.label.toList := by
    cases d.severity <;> decide
  have line := isPlain_of_isNumeral (isNumeral_toDigits d.location.line)
  have column := isPlain_of_isNumeral (isNumeral_toDigits d.location.column)
  have marks : IsPlain ": ".toList := by decide
  simp only [headerLine, Header.placeChars, writtenHeader, isPlain_append, isPlain_cons]
  exact ⟨name.plain, by decide, line, by decide, column, marks, label, marks, printable.message⟩

theorem getLast?_headerLine (document : Path) (printable : IsPrintable d) :
    (headerLine document d).getLast? ≠ some '\r' := by
  have ended := printable.ended
  simp only [headerLine, Header.placeChars, writtenHeader, List.getLast?_append,
    List.getLast?_cons]
  cases last : d.message.toList.getLast? with
  | none => simp
  | some c =>
    rw [last] at ended
    simpa using ended

/-! ## Lines -/

def writtenLines (document : Path) (d : Diagnostic) : List (List Char) :=
  headerLine document d :: d.hints.map hintLine

theorem toList_writeOne (document : Path) (d : Diagnostic) :
    (writeOne document d).toList = (writtenLines document d).flatMap (· ++ ['\n']) := by
  have digits (n : Nat) : (toString n).toList = Nat.toDigits 10 n := Nat.toList_repr
  have text (s : String) : (toString s).toList = s.toList := rfl
  have hint (hint : String) : (s!"  hint: {hint}\n").toList = hintLine hint ++ ['\n'] := by
    simp only [String.toList_append, hintLine]
    rfl
  rw [writeOne, String.toList_append, String.toList_join, writtenLines, List.flatMap_cons,
    List.flatMap_map, List.flatMap_map]
  refine congrArg₂ _ ?_ (List.flatMap_congr fun h _ => hint h)
  simp only [String.toList_append, headerLine, Header.placeChars, writtenHeader, digits, text,
    List.append_assoc, List.cons_append]
  rfl

theorem toList_write (document : Path) (ds : List Diagnostic) :
    (write document ds).toList = (ds.flatMap (writtenLines document)).flatMap (· ++ ['\n']) := by
  rw [write, String.toList_join, List.flatMap_map, List.flatMap_assoc]
  exact List.flatMap_congr fun d _ => toList_writeOne document d

theorem writtenLines_plain (name : IsName document) (printable : IsPrintable d) :
    ∀ line ∈ writtenLines document d, IsPlain line ∧ line.getLast? ≠ some '\r' := by
  refine List.forall_mem_cons.mpr ⟨⟨?_, ?_⟩, List.forall_mem_map.mpr fun hint mem => ⟨?_, ?_⟩⟩
  · exact isPlain_headerLine name printable
  · exact getLast?_headerLine document printable
  · exact isPlain_hintLine (printable.hints hint mem)
  · exact getLast?_hintLine (printable.hints hint mem)

/-- The lines of what was written are those that were written one by one. -/
theorem lines_write (name : IsName document) (printable : ∀ d ∈ ds, IsPrintable d) :
    lines (dropColours (write document ds).toList) = ds.flatMap (writtenLines document) := by
  have plain : ∀ line ∈ ds.flatMap (writtenLines document),
      IsPlain line ∧ line.getLast? ≠ some '\r' := by
    intro line mem
    obtain ⟨d, inList, written⟩ := List.mem_flatMap.mp mem
    exact writtenLines_plain name (printable d inList) line written
  have noColour : '\x1b' ∉ (write document ds).toList := by
    rw [toList_write, List.mem_flatMap]
    rintro ⟨line, mem, escape⟩
    rcases List.mem_append.mp escape with inLine | feed
    · exact (plain line mem).1.2 inLine
    · exact absurd (List.mem_singleton.mp feed) (by decide)
  rw [dropColours_of_plain noColour, toList_write]
  exact lines_flatMap fun line mem => ⟨(plain line mem).1.1, (plain line mem).2⟩

/-! ## Reading -/

theorem foldl_addLine_writtenLines (name : IsName document) (printable : IsPrintable d)
    (report : Report) :
    ((writtenLines document d).foldl (Report.addLine document) report).diagnostics =
        Diagnostic.extend report.diagnostics (some d) ∧
      ((writtenLines document d).foldl (Report.addLine document) report).seen =
        report.seen + 1 := by
  have reads : ∀ hint ∈ d.hints, hint? (hintLine hint) = some hint := fun hint mem =>
    hint?_hintLine (printable.hints hint mem)
  have plain : ∀ line ∈ d.hints.map hintLine, ¬ IsHeader line := by
    refine List.forall_mem_map.mpr fun hint mem header => ?_
    have none := header.1
    rw [reads hint mem] at none
    cases none
  have hints : (d.hints.map hintLine).filterMap hint? = d.hints := by
    rw [List.filterMap_map, Function.comp_def, List.filterMap_congr reads, List.filterMap_some]
  have leads := lineHeader?_eq_some_iff.mpr (writtenHeader_leads name d)
  have read := Report.foldl_addLine document report leads plain
  rw [writtenHeader_draft? name printable, Option.map_some, hints] at read
  exact read

/-- Diagnostics that are written in the short form are read as they were, in their order, and
    each of them is seen. -/
theorem read_write (name : IsName document) (printable : ∀ d ∈ ds, IsPrintable d)
    (distinct : ds.Pairwise fun old d => ¬ old.Repeats d) :
    (read (write document ds) document).diagnostics = ds ∧
      (read (write document ds) document).seen = ds.length := by
  obtain ⟨diagnostics, seen⟩ := Report.foldl_addLine_flatMap
    (fun d mem report => foldl_addLine_writtenLines name (printable d mem) report) {}
  rw [read, lines_write name printable, diagnostics, seen]
  exact ⟨Diagnostic.collect_map_some distinct, Nat.zero_add _⟩

/-- Messages and hints that look like headers and hints. -/
def oddities : List Diagnostic :=
  [⟨.point 3 5, .error, "b.typ:1:1: warning: hint: x", ["  main.typ:1:1: error: y", "hint: z"]⟩,
    ⟨.point 3 5, .warning, "", []⟩,
    ⟨.point 18446744073709551615 0, .warning, "\r: ", ["."]⟩]

theorem oddities_read :
    (read (write ⟨"hint/ 1"⟩ oddities) ⟨"hint/ 1"⟩).diagnostics = oddities ∧
      (read (write ⟨"hint/ 1"⟩ oddities) ⟨"hint/ 1"⟩).seen = 3 :=
  read_write (by decide +kernel) (by decide +kernel) (by decide +kernel)

end LivePreview.ShortForm
