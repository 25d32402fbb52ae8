import LivePreview.Diagnostic.Marker
import LivePreview.Proofs.Text.Columns
import LivePreview.Proofs.Text.Offset
import LivePreview.Text.Digits

/-!
# Markers on any text

A diagnostic may refer to a text that is longer or shorter than the one in the editor, and its
numbers may be any words.  Its marker still lies in the text: every step of the computation
with words has a result (`project?_eq`), and the marker starts and stops where the text comes
closest to the location (`project_marks`).
-/

namespace LivePreview

/-! ## Words

The operations on words, and the look-up in a list, with no result where there is none. -/

def addWords? (a b : Nat) : Option Nat :=
  if a + b < Text.wordLimit then some (a + b) else none

def subWords? (a b : Nat) : Option Nat :=
  if b ≤ a then some (a - b) else none

/-- Bounds of a clamp have to be in order. -/
def clampWord? (low high n : Nat) : Option Nat :=
  if low ≤ high then some (Text.LineIndex.clamp low high n) else none

theorem addWords?_eq {a b : Nat} (fits : a + b < Text.wordLimit) :
    addWords? a b = some (a + b) :=
  if_pos fits

theorem subWords?_eq {a b : Nat} (ordered : b ≤ a) : subWords? a b = some (a - b) :=
  if_pos ordered

theorem clampWord?_eq {low high : Nat} (ordered : low ≤ high) (n : Nat) :
    clampWord? low high n = some (max low (min n high)) := by
  rw [clampWord?, if_pos ordered, Text.LineIndex.clamp_eq low high n ordered]

namespace Text

/-- The line that ends at an offset with a break of the given width, and the lines after it. -/
def breakLine? (start offset width : Nat) (rest : Nat → Option (List LineSpan)) :
    Option (List LineSpan) := do
  let length ← subWords? offset start
  let next ← addWords? offset width
  let more ← rest next
  return ⟨start, length⟩ :: more

/-- The lines of a text, with the offset that was reached counted in words. -/
def lineSpans? (start offset : Nat) : List Char → Option (List LineSpan)
  | [] => do
    let length ← subWords? offset start
    return [⟨start, length⟩]
  | '\r' :: '\n' :: cs => breakLine? start offset 2 fun next => lineSpans? next next cs
  | '\r' :: cs => breakLine? start offset 1 fun next => lineSpans? next next cs
  | '\n' :: cs => breakLine? start offset 1 fun next => lineSpans? next next cs
  | _ :: cs => do
    let next ← addWords? offset 1
    lineSpans? start next cs

/-- The offset of a line and a column, computed with words. -/
def offset? (spans : List LineSpan) (line column : Nat) : Option Nat := do
  let line ← clampWord? 1 spans.length line
  let row ← subWords? line 1
  let span ← spans[row]?
  let width ← addWords? span.length 1
  let column ← clampWord? 1 width column
  let behind ← addWords? span.start column
  subWords? behind 1

theorem breakLine?_eq {start length width : Nat} {rest : Nat → Option (List LineSpan)}
    {more : List LineSpan} (fits : start + length + width < wordLimit)
    (next : rest (start + length + width) = some more) :
    breakLine? start (start + length) width rest = some (⟨start, length⟩ :: more) := by
  simp [breakLine?, subWords?_eq (Nat.le_add_right start length), addWords?_eq fits, next]

/-- The line that is read starts at or before the offset that was reached, and no offset is
    behind the end of the text. -/
theorem lineSpans?_eq {start length : Nat} {cs : List Char}
    (fits : start + length + cs.length < wordLimit) :
    lineSpans? start (start + length) cs = some (lineSpans start length cs) := by
  fun_induction lineSpans start length cs with
  | case1 => simp [lineSpans?, subWords?]
  | case2 start length cs ih =>
    simp only [List.length_cons] at fits
    rw [lineSpans?]
    exact breakLine?_eq (by omega) (ih (by omega))
  | case3 start length cs alone ih =>
    simp only [List.length_cons] at fits
    rw [lineSpans?]
    · exact breakLine?_eq (by omega) (ih (by omega))
    · exact alone
  | case4 start length cs ih =>
    simp only [List.length_cons] at fits
    rw [lineSpans?]
    exact breakLine?_eq (by omega) (ih (by omega))
  | case5 start length c cs noReturnFeed noReturn noFeed ih =>
    simp only [List.length_cons] at fits
    have next := ih (by omega)
    have sum := addWords?_eq (a := start + length) (b := 1) (by omega)
    simp_all [lineSpans?, Nat.add_assoc]

/-- A look-up in the lines of a text stays among them, and its offset is a word. -/
theorem offset?_eq {text : String} (fits : text.toList.length + 1 < wordLimit)
    (line column : Nat) :
    offset? (LineIndex.ofText text).spans line column =
      some ((LineIndex.ofText text).offset line column) := by
  have here := LineIndex.clamped_span text line
  have place := LineIndex.offset_eq text line column
  generalize (LineIndex.ofText text).span line = s at here place
  have within := (ofText_layout text).within (Nat.zero_le _) (List.mem_of_getElem? here)
  have count : 1 ≤ (LineIndex.ofText text).spans.length := (LineIndex.ofText text).lineCount_pos
  -- neither of the two clamped numbers is zero, so that one can be taken from it
  have row := subWords?_eq (Nat.le_max_left 1 (min line (LineIndex.ofText text).spans.length))
  have width := addWords?_eq (a := s.length) (b := 1) (by omega)
  have behind := addWords?_eq (a := s.start) (b := max 1 (min column (s.length + 1))) (by omega)
  have first := subWords?_eq (a := s.start + max 1 (min column (s.length + 1))) (b := 1) (by omega)
  have clamped := clampWord?_eq (Nat.le_add_left 1 s.length) column
  have look : (LineIndex.ofText text).spans[
      max 1 (min line (LineIndex.ofText text).spans.length) - 1]? = some s := here
  simp only [offset?, clampWord?_eq count, Option.bind_eq_bind, Option.bind_some, row, look, width,
    clamped, behind, first, place]

end Text

namespace Marker

variable {text : String} {d : Diagnostic} {ds : List Diagnostic}

def ofDiagnostic? (spans : List Text.LineSpan) (d : Diagnostic) : Option Marker := do
  let start ← Text.offset? spans d.location.line d.location.column
  let stop ← Text.offset? spans d.location.endLine d.location.endColumn
  return ⟨start, max stop start, d.severity, messageWithHints d.message d.hints⟩

/-- The markers of diagnostics, computed with words. -/
def project? (text : String) (ds : List Diagnostic) : Option (List Marker) := do
  let spans ← Text.lineSpans? 0 0 text.toList
  ds.mapM (ofDiagnostic? spans)

theorem project?_eq (fits : text.toList.length + 1 < Text.wordLimit) (ds : List Diagnostic) :
    project? text ds = some (project text ds) := by
  have spans : Text.lineSpans? 0 0 text.toList = some (Text.LineIndex.ofText text).spans :=
    @Text.lineSpans?_eq 0 0 text.toList (by omega)
  have each : ofDiagnostic? (Text.LineIndex.ofText text).spans =
      fun d => pure (ofDiagnostic (Text.LineIndex.ofText text) d) := by
    funext d
    simp [ofDiagnostic?, Text.offset?_eq fits, ofDiagnostic]
  rw [project?, spans, Option.bind_eq_bind, Option.bind_some, each, List.mapM_pure, project]
  rfl

theorem messageWithHints_eq (message : String) (hints : List String) :
    messageWithHints message hints = message ++ String.join (hints.map ("\nhint: " ++ ·)) := by
  induction hints generalizing message with
  | nil => simp [messageWithHints]
  | cons hint hints ih =>
    have step : messageWithHints message (hint :: hints) =
      messageWithHints (message ++ "\nhint: " ++ hint) hints := rfl
    rw [step, ih, List.map_cons, String.join_cons]
    simp only [String.append_assoc]

/-- The marker of a diagnostic on a text, whatever the location of the diagnostic is. -/
structure Marks (text : List Char) (d : Diagnostic) (m : Marker) : Prop where
  severity : m.severity = d.severity
  message : m.message = d.message ++ String.join (d.hints.map ("\nhint: " ++ ·))
  start : Text.Clamps text d.location.line d.location.column m.start
  stop : ∃ n, Text.Clamps text d.location.endLine d.location.endColumn n ∧ m.stop = max n m.start
  ordered : m.start ≤ m.stop
  inside : m.stop ≤ text.length
  whole : ¬ Text.SplitsBreak text m.stop

theorem marks_ofDiagnostic (text : String) (d : Diagnostic) :
    Marks text.toList d (ofDiagnostic (Text.LineIndex.ofText text) d) := by
  have start := Text.LineIndex.clamps_offset text d.location.line d.location.column
  have stop := Text.LineIndex.clamps_offset text d.location.endLine d.location.endColumn
  refine ⟨rfl, messageWithHints_eq .., start, ⟨_, stop, rfl⟩, Nat.le_max_right .., ?_, ?_⟩
  · exact Nat.max_le.mpr ⟨stop.inside, start.inside⟩
  · show ¬ Text.SplitsBreak text.toList (max _ _)
    rw [Nat.max_def]
    split
    · exact start.whole
    · exact stop.whole

/-- Each diagnostic has its marker, in the same order, and no step on the way to the markers of a
    text that fits into memory goes wrong. -/
theorem project_marks (text : String) (ds : List Diagnostic) :
    (text.utf8ByteSize < 2 ^ 63 → project? text ds = some (project text ds)) ∧
      List.Forall₂ (Marks text.toList) ds (project text ds) := by
  constructor
  · intro small
    have shorter := Text.length_le_utf8ByteSize text
    refine project?_eq ?_ ds
    rw [String.length_toList, Text.wordLimit, Nat.one_shiftLeft]
    omega
  · rw [project, List.forall₂_map_right_iff, List.forall₂_same]
    exact fun d _ => marks_ofDiagnostic text d

/-- A location far behind the text with its end in front of the text, and one that is in it. -/
def strays : List Diagnostic :=
  [⟨⟨18446744073709551615, 18446744073709551615, 0, 0⟩, .warning, "w", ["h", "i"]⟩,
    ⟨⟨2, 1, 3, 18446744073709551615⟩, .error, "e", []⟩]

theorem strays_marked :
    project? "a\r\n\rb" strays =
        some [⟨5, 5, .warning, "w\nhint: h\nhint: i"⟩, ⟨3, 5, .error, "e"⟩] ∧
      List.Forall₂ (Marks "a\r\n\rb".toList) strays
        [⟨5, 5, .warning, "w\nhint: h\nhint: i"⟩, ⟨3, 5, .error, "e"⟩] := by
  obtain ⟨words, marks⟩ := project_marks "a\r\n\rb" strays
  have markers : project "a\r\n\rb" strays =
      [⟨5, 5, .warning, "w\nhint: h\nhint: i"⟩, ⟨3, 5, .error, "e"⟩] := by decide +kernel
  rw [markers] at words marks
  exact ⟨words (by decide), marks⟩

end Marker

end LivePreview
