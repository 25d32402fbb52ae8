import LivePreview.Text.Basic

/-!
# Lines by number

A `LineIndex` lists the lines of a text with their start offsets, counted in
characters.  A line ends at a line feed, at a carriage return with a line feed
after it, or at a carriage return alone.  `offset` turns a one-based line and
column into an offset, clamping both into the text.
-/

namespace LivePreview.Text

/-- Where a line lies: the offset of its first character and its length without
    its break. -/
structure LineSpan where
  start : Nat
  length : Nat
  deriving DecidableEq, Repr, Inhabited

/-- The line that the text is in after `length` characters from `start`, and the
    lines after it. -/
def lineSpans (start length : Nat) : List Char → List LineSpan
  | [] => [⟨start, length⟩]
  | '\r' :: '\n' :: cs => ⟨start, length⟩ :: lineSpans (start + length + 2) 0 cs
  | '\r' :: cs => ⟨start, length⟩ :: lineSpans (start + length + 1) 0 cs
  | '\n' :: cs => ⟨start, length⟩ :: lineSpans (start + length + 1) 0 cs
  | _ :: cs => lineSpans start (length + 1) cs

theorem lineSpans_ne_nil (start length : Nat) (cs : List Char) :
    lineSpans start length cs ≠ [] := by
  fun_induction lineSpans start length cs <;> simp_all

/-- The lines of one text; there is always at least one. -/
structure LineIndex where
  spans : List LineSpan
  spans_ne_nil : spans ≠ []

namespace LineIndex

def ofText (text : String) : LineIndex :=
  ⟨lineSpans 0 0 text.toList, lineSpans_ne_nil 0 0 text.toList⟩

def lineCount (index : LineIndex) : Nat :=
  index.spans.length

theorem lineCount_pos (index : LineIndex) : 0 < index.lineCount :=
  List.length_pos_iff.mpr index.spans_ne_nil

def clamp (low high n : Nat) : Nat :=
  if n < low then low else if high < n then high else n

/-- The span of the line with the one-based number `line`, clamped. -/
def span (index : LineIndex) (line : Nat) : LineSpan :=
  index.spans.get ⟨clamp 1 index.lineCount line - 1, by
    have := index.lineCount_pos
    unfold clamp
    unfold lineCount at *
    split
    · omega
    · split <;> omega⟩

/-- The offset of a one-based line and column, both clamped into the text. -/
def offset (index : LineIndex) (line column : Nat) : Nat :=
  let span := index.span line
  span.start + clamp 1 (span.length + 1) column - 1

end LineIndex

end LivePreview.Text
