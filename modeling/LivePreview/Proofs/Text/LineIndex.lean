import LivePreview.Text.LineIndex
import Mathlib.Data.Prod.Lex
import Mathlib.Data.Set.Function
import Mathlib.Order.Monotone.Defs

/-!
# Places in a text

The lines of a text and the breaks between them are laid out one after the other
(`Layout`), so that the places of a text, line by line and column by column, are its
offsets in order.  Only the offset between a carriage return and its line feed belongs to
no line (`offset_bijOn_places`).
-/

namespace LivePreview.Text

/-! ## Breaks -/

/-- What separates two lines. -/
inductive Break where
  | lineFeed
  | returnFeed
  | loneReturn
  deriving DecidableEq, Repr

namespace Break

def chars : Break → List Char
  | lineFeed => ['\n']
  | returnFeed => ['\r', '\n']
  | loneReturn => ['\r']

/-- A carriage return with a line feed after it is not alone. -/
def Precedes (b : Break) (next : Option Char) : Prop :=
  b = loneReturn → next ≠ some '\n'

theorem precedes_of_ne {b : Break} (other : b ≠ loneReturn) (next : Option Char) :
    b.Precedes next :=
  fun lone => absurd lone other

end Break

def Unbroken (cs : List Char) : Prop :=
  ∀ c ∈ cs, c ≠ '\n' ∧ c ≠ '\r'

/-- Whether an offset lies between a carriage return and its line feed. -/
def SplitsBreak (text : List Char) (n : Nat) : Prop :=
  0 < n ∧ text[n - 1]? = some '\r' ∧ text[n]? = some '\n'

theorem not_splitsBreak_zero (text : List Char) : ¬ SplitsBreak text 0 :=
  fun splits => absurd splits.1 (Nat.lt_irrefl 0)

theorem Unbroken.snoc {line : List Char} {c : Char} (plain : Unbroken line) (feed : c ≠ '\n')
    (ret : c ≠ '\r') : Unbroken (line ++ [c]) := by
  intro d mem
  rcases List.mem_append.mp mem with mem | mem
  · exact plain d mem
  · obtain rfl := List.mem_singleton.mp mem
    exact ⟨feed, ret⟩

/-! ## Layout -/

/-- The lines of a text from an offset on: each but the last has a break after it, and the
    next line starts behind the break. -/
inductive Layout (text : List Char) : Nat → List LineSpan → Prop where
  | last {start : Nat} {line : List Char} (here : text.drop start = line)
      (plain : Unbroken line) : Layout text start [⟨start, line.length⟩]
  | line {start : Nat} {line rest : List Char} {b : Break} {spans : List LineSpan}
      (here : text.drop start = line ++ (b.chars ++ rest)) (plain : Unbroken line)
      (ends : b.Precedes rest.head?)
      (more : Layout text (start + line.length + b.chars.length) spans) :
      Layout text start (⟨start, line.length⟩ :: spans)

theorem drop_behind {text line rest : List Char} {start : Nat} {b : Break}
    (here : text.drop start = line ++ (b.chars ++ rest)) :
    text.drop (start + line.length + b.chars.length) = rest := by
  rw [Nat.add_assoc, ← List.drop_drop, here, ← List.append_assoc, ← List.length_append]
  exact List.drop_left

theorem Unbroken.nil : Unbroken [] := by
  simp [Unbroken]

theorem lineSpans_layout {text line cs : List Char} {start : Nat}
    (here : text.drop start = line ++ cs) (plain : Unbroken line) :
    Layout text start (lineSpans start line.length cs) := by
  generalize width : line.length = length
  -- each case of the scan reads a break, or one more character of its line
  fun_induction lineSpans start length cs generalizing line with
  | case1 start length =>
    rw [List.append_nil] at here
    exact width ▸ .last here plain
  | case2 start length cs ih =>
    subst width
    have after := drop_behind (b := .returnFeed) here
    have ends := Break.precedes_of_ne (b := .returnFeed) (by decide) cs.head?
    exact .line here plain ends (@ih [] after .nil rfl)
  | case3 start length cs alone ih =>
    subst width
    have after := drop_behind (b := .loneReturn) here
    refine .line (b := .loneReturn) here plain ?_ (@ih [] after .nil rfl)
    intro _ next
    obtain ⟨rest, feed⟩ := List.head?_eq_some_iff.mp next
    exact alone rest feed
  | case4 start length cs ih =>
    subst width
    have after := drop_behind (b := .lineFeed) here
    have ends := Break.precedes_of_ne (b := .lineFeed) (by decide) cs.head?
    exact .line here plain ends (@ih [] after .nil rfl)
  | case5 start length c cs noReturnFeed noReturn noFeed ih =>
    have more : text.drop start = (line ++ [c]) ++ cs := by simpa using here
    exact ih more (plain.snoc noFeed noReturn) (by simp [width])

theorem ofText_layout (text : String) :
    Layout text.toList 0 (LineIndex.ofText text).spans :=
  @lineSpans_layout _ [] _ 0 rfl .nil

namespace Layout

variable {text : List Char} {start : Nat} {spans : List LineSpan} {s t : LineSpan}

theorem start_le (layout : Layout text start spans) (mem : s ∈ spans) : start ≤ s.start := by
  induction layout with
  | last here plain =>
    obtain rfl := List.mem_singleton.mp mem
    exact Nat.le_refl _
  | line here plain ends more ih =>
    rcases List.mem_cons.mp mem with rfl | later
    · exact Nat.le_refl _
    · have := ih later
      omega

/-- A line starts behind the end of each line before it. -/
theorem ordered (layout : Layout text start spans) :
    spans.Pairwise fun s t => s.start + s.length < t.start := by
  induction layout with
  | last here plain => exact List.pairwise_singleton ..
  | @line start line rest b spans here plain ends more ih =>
    refine List.pairwise_cons.mpr ⟨fun t mem => ?_, ih⟩
    have behind := more.start_le mem
    have wide : 0 < b.chars.length := by cases b <;> decide
    show start + line.length < t.start
    omega

theorem within (layout : Layout text start spans) (inside : start ≤ text.length)
    (mem : s ∈ spans) : s.start + s.length ≤ text.length := by
  induction layout with
  | last here plain =>
    obtain rfl := List.mem_singleton.mp mem
    simp only [← here, List.length_drop]
    omega
  | @line start line rest b spans here plain ends more ih =>
    have total := congrArg List.length here
    simp only [List.length_drop, List.length_append] at total
    rcases List.mem_cons.mp mem with rfl | later
    · show start + line.length ≤ text.length
      omega
    · exact ih (by omega) later

/-- No line has a break in it. -/
theorem unbroken (layout : Layout text start spans) (mem : s ∈ spans) :
    Unbroken ((text.drop s.start).take s.length) := by
  induction layout with
  | last here plain =>
    obtain rfl := List.mem_singleton.mp mem
    rw [here, List.take_length]
    exact plain
  | line here plain ends more ih =>
    rcases List.mem_cons.mp mem with rfl | later
    · rw [here, List.take_left]
      exact plain
    · exact ih later

theorem first (layout : Layout text start spans) :
    ∃ s more, spans = s :: more ∧ s.start = start := by
  cases layout with
  | last here plain => exact ⟨_, _, rfl, rfl⟩
  | line here plain ends more => exact ⟨_, _, rfl, rfl⟩

/-- Between a line and the next one there is one break. -/
theorem separated (layout : Layout text start spans) {i : Nat} (upper : spans[i]? = some s)
    (lower : spans[i + 1]? = some t) :
    ∃ b : Break, text.drop (s.start + s.length) = b.chars ++ text.drop t.start ∧
      b.Precedes text[t.start]? := by
  induction layout generalizing i with
  | last here plain => simp at lower
  | @line start line rest b spans here plain ends more ih =>
    cases i with
    | succ i => exact ih upper lower
    | zero =>
      obtain rfl := Option.some.inj upper
      obtain ⟨next, others, rfl, behind⟩ := more.first
      obtain rfl := Option.some.inj lower
      have after := drop_behind here
      rw [← behind] at after
      refine ⟨b, ?_, ?_⟩
      · rw [← List.drop_drop, here, List.drop_left, after]
      · rw [← List.head?_drop, after]
        exact ends

theorem not_splitsBreak_of_line {line : List Char} {rest : List Char} {n : Nat}
    (here : text.drop start = line ++ rest) (plain : Unbroken line)
    (whole : ¬ SplitsBreak text start) (low : start ≤ n) (high : n ≤ start + line.length) :
    ¬ SplitsBreak text n := by
  rcases Nat.eq_or_lt_of_le low with rfl | behind
  · exact whole
  · rintro ⟨-, ret, -⟩
    obtain ⟨k, rfl⟩ := Nat.exists_eq_add_of_lt behind
    rw [show start + k + 1 - 1 = start + k by omega, ← List.getElem?_drop, here,
      List.getElem?_append_left (by omega)] at ret
    exact (plain _ (List.mem_of_getElem? ret)).2 rfl

theorem break_getElem? {line rest : List Char} {b : Break} {k : Nat}
    (here : text.drop start = line ++ (b.chars ++ rest)) (inside : k < b.chars.length) :
    text[start + line.length + k]? = b.chars[k]? := by
  rw [Nat.add_assoc, ← List.getElem?_drop, here, List.getElem?_append_right (by omega),
    Nat.add_sub_cancel_left, List.getElem?_append_left inside]

/-- The start of a line is not within a break. -/
theorem not_splitsBreak_behind {line rest : List Char} {b : Break}
    (here : text.drop start = line ++ (b.chars ++ rest)) (ends : b.Precedes rest.head?) :
    ¬ SplitsBreak text (start + line.length + b.chars.length) := by
  rintro ⟨-, ret, feed⟩
  rw [← List.head?_drop, drop_behind here] at feed
  cases b with
  | loneReturn => exact ends rfl feed
  | lineFeed =>
    have last := break_getElem? (k := 0) here (by decide)
    exact absurd (ret.symm.trans last) (by decide)
  | returnFeed =>
    have last := break_getElem? (k := 1) here (by decide)
    exact absurd (ret.symm.trans last) (by decide)

/-- The offsets of the lines are all those that do not split a break. -/
theorem covers_iff (layout : Layout text start spans) (whole : ¬ SplitsBreak text start) {n : Nat}
    (low : start ≤ n) (high : n ≤ text.length) :
    (∃ s ∈ spans, s.start ≤ n ∧ n ≤ s.start + s.length) ↔ ¬ SplitsBreak text n := by
  induction layout with
  | @last start line here plain =>
    have total := congrArg List.length here
    rw [List.length_drop] at total
    have here : text.drop start = line ++ [] := by rw [here, List.append_nil]
    refine iff_of_true ⟨_, List.mem_singleton_self _, low, ?_⟩
      (not_splitsBreak_of_line here plain whole low (by omega))
    show n ≤ start + line.length
    omega
  | @line start line rest b spans here plain ends more ih =>
    by_cases inLine : n ≤ start + line.length
    · exact iff_of_true ⟨_, List.mem_cons_self, low, inLine⟩
        (not_splitsBreak_of_line here plain whole low inLine)
    by_cases behind : start + line.length + b.chars.length ≤ n
    · rw [← ih (not_splitsBreak_behind here ends) behind]
      refine ⟨fun ⟨s, mem, lower, upper⟩ => ?_,
        fun ⟨s, mem, covered⟩ => ⟨s, List.mem_cons_of_mem _ mem, covered⟩⟩
      rcases List.mem_cons.mp mem with rfl | later
      · exact absurd upper inLine
      · exact ⟨s, later, lower, upper⟩
    · -- only a break of two characters has an offset inside
      have within : n = start + line.length + 1 ∧ b = .returnFeed := by
        cases b <;> simp only [Break.chars, List.length_cons, List.length_nil] at behind
        · omega
        · exact ⟨by omega, rfl⟩
        · omega
      obtain ⟨rfl, rfl⟩ := within
      refine iff_of_false ?_ (not_not_intro ⟨by omega, ?_, ?_⟩)
      · rintro ⟨s, mem, lower, upper⟩
        rcases List.mem_cons.mp mem with rfl | later
        · exact inLine upper
        · exact behind (Nat.le_trans (more.start_le later) lower)
      · exact break_getElem? (k := 0) here (by decide)
      · exact break_getElem? (k := 1) here (by decide)

end Layout

/-! ## Places -/

namespace LineIndex

variable {index : LineIndex} {line column : Nat}

/-- The lines and columns of a text.  The last column of a line is behind its last
    character. -/
def places (index : LineIndex) : Set (Nat ×ₗ Nat) :=
  {p | (1 ≤ (ofLex p).1 ∧ (ofLex p).1 ≤ index.lineCount) ∧
    1 ≤ (ofLex p).2 ∧ (ofLex p).2 ≤ (index.span (ofLex p).1).length + 1}

def offsetOf (index : LineIndex) (p : Nat ×ₗ Nat) : Nat :=
  index.offset (ofLex p).1 (ofLex p).2

def startOf (index : LineIndex) (line : Nat) : Nat :=
  index.offset line 1

def endOf (index : LineIndex) (line : Nat) : Nat :=
  index.offset line ((index.span line).length + 1)

theorem clamp_of_mem {low high n : Nat} (above : low ≤ n) (below : n ≤ high) :
    clamp low high n = n := by
  rw [clamp, if_neg (by omega), if_neg (by omega)]

theorem spans_getElem? (index : LineIndex) {line : Nat} (first : 1 ≤ line)
    (last : line ≤ index.lineCount) :
    index.spans[line - 1]? = some (index.span line) := by
  have inside : line - 1 < index.spans.length := by
    unfold lineCount at last
    omega
  rw [List.getElem?_eq_getElem inside, span]
  simp only [List.get_eq_getElem, clamp_of_mem first last]

theorem span_mem (first : 1 ≤ line) (last : line ≤ index.lineCount) :
    index.span line ∈ index.spans :=
  List.mem_of_getElem? (spans_getElem? index first last)

theorem offset_of_mem (first : 1 ≤ column) (last : column ≤ (index.span line).length + 1) :
    index.offset line column = (index.span line).start + column - 1 := by
  simp only [offset, clamp_of_mem first last]

theorem startOf_eq (index : LineIndex) (line : Nat) :
    index.startOf line = (index.span line).start := by
  rw [startOf, offset_of_mem (by omega) (by omega), Nat.add_sub_cancel]

theorem endOf_eq (index : LineIndex) (line : Nat) :
    index.endOf line = (index.span line).start + (index.span line).length := by
  rw [endOf, offset_of_mem (by omega) (by omega)]
  omega

/-- Lines further down start behind the end of those above. -/
theorem end_lt_start {text : String} {upper lower : Nat} (first : 1 ≤ upper)
    (below : upper < lower) (last : lower ≤ (ofText text).lineCount) :
    ((ofText text).span upper).start + ((ofText text).span upper).length <
      ((ofText text).span lower).start := by
  obtain ⟨i, here⟩ := List.getElem?_eq_some_iff.mp
    (spans_getElem? _ first (Nat.le_trans (Nat.le_of_lt below) last))
  obtain ⟨j, there⟩ := List.getElem?_eq_some_iff.mp
    (spans_getElem? _ (Nat.le_trans first (Nat.le_of_lt below)) last)
  have ordered := List.pairwise_iff_getElem.mp (ofText_layout text).ordered _ _ i j (by omega)
  rwa [here, there] at ordered

theorem offsetOf_strictMonoOn (text : String) :
    StrictMonoOn (ofText text).offsetOf (ofText text).places := by
  rintro p ⟨⟨pFirst, pLast⟩, pLow, pHigh⟩ q ⟨⟨qFirst, qLast⟩, qLow, qHigh⟩ before
  rw [offsetOf, offsetOf, offset_of_mem pLow pHigh, offset_of_mem qLow qHigh]
  rcases Prod.Lex.lt_iff.mp before with above | ⟨same, left⟩
  · have := end_lt_start pFirst above qLast
    omega
  · rw [same]
    omega

theorem offsetOf_mapsTo (text : String) :
    Set.MapsTo (ofText text).offsetOf (ofText text).places
      {n | n ≤ text.length ∧ ¬ SplitsBreak text.toList n} := by
  rintro p ⟨⟨first, last⟩, low, high⟩
  have layout := ofText_layout text
  have mem := span_mem first last
  have inside := layout.within (Nat.zero_le _) mem
  rw [String.length_toList] at inside
  rw [offsetOf, offset_of_mem low high]
  refine ⟨by omega, (layout.covers_iff (not_splitsBreak_zero _) (Nat.zero_le _) ?_).mp
    ⟨_, mem, by omega, by omega⟩⟩
  rw [String.length_toList]
  omega

theorem offsetOf_surjOn (text : String) :
    Set.SurjOn (ofText text).offsetOf (ofText text).places
      {n | n ≤ text.length ∧ ¬ SplitsBreak text.toList n} := by
  rintro n ⟨inside, whole⟩
  rw [← String.length_toList] at inside
  obtain ⟨s, mem, low, high⟩ :=
    ((ofText_layout text).covers_iff (not_splitsBreak_zero _) (Nat.zero_le n) inside).mpr whole
  obtain ⟨i, bound, rfl⟩ := List.mem_iff_getElem.mp mem
  have line : (ofText text).span (i + 1) = (ofText text).spans[i] := by
    have here := spans_getElem? (ofText text) (Nat.le_add_left 1 i) bound
    rw [Nat.add_sub_cancel, List.getElem?_eq_getElem bound] at here
    exact (Option.some.inj here).symm
  have column : n - (ofText text).spans[i].start + 1 ≤ ((ofText text).span (i + 1)).length + 1 := by
    rw [line]
    omega
  refine ⟨toLex (i + 1, n - (ofText text).spans[i].start + 1), ⟨⟨?_, bound⟩, ?_, column⟩, ?_⟩
  · exact Nat.le_add_left ..
  · exact Nat.le_add_left ..
  · rw [offsetOf, ofLex_toLex, offset_of_mem (Nat.le_add_left ..) column, line]
    omega

theorem extract_line_unbroken (text : String) {line : Nat} (first : 1 ≤ line)
    (last : line ≤ (ofText text).lineCount) :
    Unbroken (text.toList.extract ((ofText text).startOf line) ((ofText text).endOf line)) := by
  rw [startOf_eq, endOf_eq, List.extract_eq_take_drop, Nat.add_sub_cancel_left]
  exact (ofText_layout text).unbroken (span_mem first last)

theorem extract_between_lines (text : String) {line : Nat} (first : 1 ≤ line)
    (last : line < (ofText text).lineCount) :
    ∃ b : Break,
      text.toList.extract ((ofText text).endOf line) ((ofText text).startOf (line + 1)) =
        b.chars ∧ b.Precedes text.toList[(ofText text).startOf (line + 1)]? := by
  have here := spans_getElem? _ first (Nat.le_of_lt last)
  have next := spans_getElem? _ (Nat.le_add_left 1 line) last
  rw [show line + 1 - 1 = line - 1 + 1 by omega] at next
  obtain ⟨b, cut, ends⟩ := (ofText_layout text).separated here next
  refine ⟨b, ?_, ?_⟩
  · rw [startOf_eq, endOf_eq, List.extract_eq_take_drop, cut]
    have inside := (ofText_layout text).within (Nat.zero_le _) (List.mem_of_getElem? next)
    have total := congrArg List.length cut
    simp only [List.length_drop, List.length_append] at total
    rw [List.take_append_of_le_length (by omega), List.take_of_length_le (by omega)]
  · rw [startOf_eq]
    exact ends

/-- The places of a text, taken line by line, are its offsets in order, but for those that
    split a break.  No line has a break in it, and consecutive lines have one between them. -/
theorem offset_bijOn_places (text : String) :
    StrictMonoOn (ofText text).offsetOf (ofText text).places ∧
      Set.BijOn (ofText text).offsetOf (ofText text).places
        {n | n ≤ text.length ∧ ¬ SplitsBreak text.toList n} ∧
      (∀ line, 1 ≤ line → line ≤ (ofText text).lineCount →
        Unbroken
          (text.toList.extract ((ofText text).startOf line) ((ofText text).endOf line))) ∧
      ∀ line, 1 ≤ line → line < (ofText text).lineCount → ∃ b : Break,
        text.toList.extract ((ofText text).endOf line) ((ofText text).startOf (line + 1)) =
          b.chars ∧ b.Precedes text.toList[(ofText text).startOf (line + 1)]? := by
  have ordered := offsetOf_strictMonoOn text
  refine ⟨ordered, ⟨offsetOf_mapsTo text, ordered.injOn, offsetOf_surjOn text⟩, ?_, ?_⟩
  · intro line first last
    exact extract_line_unbroken text first last
  · intro line first last
    exact extract_between_lines text first last

/-- A break of each width, and an empty line between them: the offset within the first break
    has no place. -/
theorem places_of_mixed_breaks :
    (ofText "a\r\n\rb").lineCount = 3 ∧
      (∀ p ∈ (ofText "a\r\n\rb").places, (ofText "a\r\n\rb").offsetOf p ≠ 2) ∧
      Unbroken ("a\r\n\rb".toList.extract ((ofText "a\r\n\rb").startOf 3)
        ((ofText "a\r\n\rb").endOf 3)) ∧
      ∃ b : Break,
        "a\r\n\rb".toList.extract ((ofText "a\r\n\rb").endOf 2) ((ofText "a\r\n\rb").startOf 3) =
          b.chars ∧ b.Precedes "a\r\n\rb".toList[(ofText "a\r\n\rb").startOf 3]? := by
  have lines : (ofText "a\r\n\rb").lineCount = 3 := by decide
  obtain ⟨-, ⟨mapsTo, -, -⟩, plain, apart⟩ := offset_bijOn_places "a\r\n\rb"
  refine ⟨lines, ?_, plain 3 (by decide) (by rw [lines]),
    apart 2 (by decide) (by rw [lines]; decide)⟩
  intro p place here
  have whole := (mapsTo place).2
  rw [here] at whole
  exact whole ⟨by decide, by decide, by decide⟩

end LineIndex

end LivePreview.Text
