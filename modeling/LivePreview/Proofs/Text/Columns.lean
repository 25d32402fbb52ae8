import LivePreview.Proofs.Text.Cuts
import LivePreview.Proofs.Text.LineIndex
import Mathlib.Data.Nat.Count

/-!
# Lines and columns of an offset

The line of an offset counts the breaks that end before it, and its column the characters since
the last one of them.  An index puts a line and a column where the text comes closest to them:
on the clamped line, at the clamped column (`clamps_offset`).
-/

namespace LivePreview.Text

def isBreak (c : Char) : Bool :=
  c == '\n' || c == '\r'

/-- Whether a break ends with the character at an offset. -/
def EndsBreak (text : List Char) (i : Nat) : Prop :=
  text[i]? = some '\n' ∨ (text[i]? = some '\r' ∧ text[i + 1]? ≠ some '\n')

instance (text : List Char) : DecidablePred (EndsBreak text) :=
  fun _ => inferInstanceAs (Decidable (_ ∨ _ ∧ _))

/-- The line of an offset, counted from one. -/
def lineAt (text : List Char) (n : Nat) : Nat :=
  Nat.count (EndsBreak text) n + 1

/-- The column of an offset, counted from one. -/
def columnAt (text : List Char) (n : Nat) : Nat :=
  ((text.take n).reverse.takeWhile (!isBreak ·)).length + 1

/-- The column behind the last character on the line of an offset. -/
def lastColumnAt (text : List Char) (n : Nat) : Nat :=
  columnAt text n + ((text.drop n).takeWhile (!isBreak ·)).length

variable {text line rest : List Char} {start i n : Nat} {b : Break}

theorem Unbroken.plain (unbroken : Unbroken line) : ∀ c ∈ line, !isBreak c := by
  intro c mem
  simp [isBreak, unbroken c mem]

/-! ## Lines -/

theorem lineAt_zero (text : List Char) : lineAt text 0 = 1 := by
  simp [lineAt]

theorem lineAt_succ (text : List Char) (n : Nat) :
    lineAt text (n + 1) = lineAt text n + if EndsBreak text n then 1 else 0 := by
  rw [lineAt, Nat.count_succ, lineAt]
  omega

theorem not_endsBreak_of_line (here : text.drop start = line ++ rest) (plain : Unbroken line)
    (low : start ≤ i) (high : i < start + line.length) : ¬ EndsBreak text i := by
  obtain ⟨k, rfl⟩ := Nat.exists_eq_add_of_le low
  have inside : k < line.length := by omega
  have inLine : text[start + k]? = some (line.get ⟨k, inside⟩) := by
    rw [← List.getElem?_drop, here, List.getElem?_append_left inside,
      List.getElem?_eq_getElem inside, List.get_eq_getElem]
  have noBreak := plain _ (List.get_mem line ⟨k, inside⟩)
  rw [EndsBreak, inLine]
  rintro (feed | ⟨ret, -⟩)
  · exact noBreak.1 (Option.some.inj feed)
  · exact noBreak.2 (Option.some.inj ret)

/-- All offsets on a line, and the one behind its last character, have the same line. -/
theorem lineAt_of_line (here : text.drop start = line ++ rest) (plain : Unbroken line)
    (low : start ≤ n) (high : n ≤ start + line.length) : lineAt text n = lineAt text start := by
  induction n, low using Nat.le_induction with
  | base => rfl
  | succ n low ih =>
    have inLine := not_endsBreak_of_line here plain low (by omega)
    rw [lineAt_succ, if_neg inLine, ih (by omega), Nat.add_zero]

/-- A break ends once, however wide it is. -/
theorem lineAt_behind (here : text.drop start = line ++ (b.chars ++ rest))
    (ends : b.Precedes rest.head?) :
    lineAt text (start + line.length + b.chars.length) =
      lineAt text (start + line.length) + 1 := by
  have next : text[start + line.length + b.chars.length]? = rest.head? := by
    rw [← List.head?_drop, drop_behind here]
  cases b with
  | lineFeed =>
    have feed := Layout.break_getElem? (k := 0) here (by decide)
    have ended : EndsBreak text (start + line.length) := .inl feed
    rw [show Break.lineFeed.chars.length = 1 from rfl, lineAt_succ, if_pos ended]
  | loneReturn =>
    have ret := Layout.break_getElem? (k := 0) here (by decide)
    have ended : EndsBreak text (start + line.length) := .inr ⟨ret, next ▸ ends rfl⟩
    rw [show Break.loneReturn.chars.length = 1 from rfl, lineAt_succ, if_pos ended]
  | returnFeed =>
    have ret := Layout.break_getElem? (k := 0) here (by decide)
    have feed := Layout.break_getElem? (k := 1) here (by decide)
    have ended : EndsBreak text (start + line.length + 1) := .inl feed
    have goesOn : ¬ EndsBreak text (start + line.length) := by
      rintro (alone | ⟨-, alone⟩)
      · exact absurd (ret.symm.trans alone) (by decide)
      · exact alone feed
    rw [show Break.returnFeed.chars.length = 1 + 1 from rfl, ← Nat.add_assoc, lineAt_succ,
      if_pos ended, lineAt_succ, if_neg goesOn]

theorem lineAt_next (here : text.drop start = line ++ (b.chars ++ rest)) (plain : Unbroken line)
    (ends : b.Precedes rest.head?) :
    lineAt text (start + line.length + b.chars.length) = lineAt text start + 1 := by
  rw [lineAt_behind here ends, lineAt_of_line here plain (by omega) (by omega)]

namespace Layout

variable {spans : List LineSpan} {s : LineSpan}

/-- The lines of a layout are counted from the one that it starts with. -/
theorem lineAt_of_span (layout : Layout text start spans) (here : spans[i]? = some s)
    (low : s.start ≤ n) (high : n ≤ s.start + s.length) :
    lineAt text n = lineAt text start + i := by
  induction layout generalizing i with
  | @last start line drops plain =>
    obtain ⟨rfl, rfl⟩ : i = 0 ∧ s = ⟨start, line.length⟩ := by
      cases i <;> simp_all
    have drops : text.drop start = line ++ [] := by simpa using drops
    simpa using lineAt_of_line drops plain low high
  | @line start line rest b spans drops plain ends more ih =>
    cases i with
    | zero =>
      obtain rfl := Option.some.inj here
      simpa using lineAt_of_line drops plain low high
    | succ i =>
      have onNext := ih here
      rw [lineAt_next drops plain ends] at onNext
      omega

/-- Behind the last line there is nothing. -/
theorem lineAt_length (layout : Layout text start spans) (inside : start ≤ text.length) :
    lineAt text text.length + 1 = lineAt text start + spans.length := by
  induction layout with
  | @last start line drops plain =>
    have total := congrArg List.length drops
    have drops : text.drop start = line ++ [] := by simpa using drops
    rw [List.length_drop] at total
    rw [lineAt_of_line drops plain inside (by omega)]
    simp
  | @line start line rest b spans drops plain ends more ih =>
    have total := congrArg List.length drops
    simp only [List.length_drop, List.length_append] at total
    have onNext := ih (by omega)
    rw [lineAt_next drops plain ends] at onNext
    rw [List.length_cons]
    omega

/-! ## Columns -/

/-- A line starts behind a break, if it does not start with the layout. -/
theorem starts_behind_break (layout : Layout text start spans) (mem : s ∈ spans) :
    s.start = start ∨ ∃ c, text[s.start - 1]? = some c ∧ isBreak c := by
  induction layout with
  | last =>
    obtain rfl := List.mem_singleton.mp mem
    exact .inl rfl
  | @line start line rest b spans drops plain ends more ih =>
    rcases List.mem_cons.mp mem with rfl | later
    · exact .inl rfl
    refine .inr ?_
    rcases ih later with first | behind
    · have last : b.chars.length - 1 < b.chars.length := by cases b <;> decide
      have before := break_getElem? drops last
      rw [first, show start + line.length + b.chars.length - 1 =
        start + line.length + (b.chars.length - 1) by omega, before]
      cases b <;> exact ⟨_, rfl, by decide⟩
    · exact behind

/-- A line ends in front of a break, or the text ends with it. -/
theorem ends_before_break (layout : Layout text start spans) (mem : s ∈ spans) :
    ∀ c ∈ text[s.start + s.length]?, isBreak c := by
  induction layout with
  | @last start line drops plain =>
    obtain rfl := List.mem_singleton.mp mem
    have behind : text[start + line.length]? = none := by
      rw [← List.getElem?_drop, drops]
      simp
    simp [behind]
  | @line start line rest b spans drops plain ends more ih =>
    rcases List.mem_cons.mp mem with rfl | later
    · have first : 0 < b.chars.length := by cases b <;> decide
      have feed := break_getElem? drops first
      rw [Nat.add_zero] at feed
      rw [feed]
      cases b <;> simp [Break.chars, isBreak]
    · exact ih later

/-- The characters in front of an offset are cut where its line starts. -/
theorem columnAt_of_span (layout : Layout text 0 spans) (mem : s ∈ spans) (low : s.start ≤ n)
    (high : n ≤ s.start + s.length) : columnAt text n = n - s.start + 1 := by
  have inside := layout.within (Nat.zero_le _) mem
  have cut : text.take n = text.take s.start ++ (text.drop s.start).take (n - s.start) := by
    rw [← List.take_add, Nat.add_sub_cancel' low]
  have plain : ∀ c ∈ ((text.drop s.start).take (n - s.start)).reverse, !isBreak c := by
    intro c mem'
    have onLine := List.take_subset_take_left (text.drop s.start)
      (Nat.sub_le_iff_le_add'.mpr high) (List.mem_reverse.mp mem')
    exact (layout.unbroken mem).plain c onLine
  have stops : ∀ c ∈ (text.take s.start).reverse.head?, (!isBreak c) = false := by
    intro c before
    rw [List.head?_reverse, List.getLast?_take] at before
    rcases layout.starts_behind_break mem with first | ⟨d, behind, breaks⟩
    · simp [first] at before
    · simp_all
  rw [columnAt, cut, List.reverse_append, takeWhile_run plain stops, List.length_reverse,
    List.length_take, List.length_drop]
  omega

/-- The characters behind an offset are cut where its line ends. -/
theorem lastColumnAt_of_span (layout : Layout text 0 spans) (mem : s ∈ spans)
    (low : s.start ≤ n) (high : n ≤ s.start + s.length) :
    lastColumnAt text n = s.length + 1 := by
  have inside := layout.within (Nat.zero_le _) mem
  have cut : text.drop n = ((text.drop s.start).take s.length).drop (n - s.start) ++
      text.drop (s.start + s.length) := by
    have later : text.drop n = (text.drop s.start).drop (n - s.start) := by
      rw [List.drop_drop, Nat.add_sub_cancel' low]
    have whole := List.take_append_drop s.length (text.drop s.start)
    rw [List.drop_drop] at whole
    rw [later, ← List.drop_append_of_le_length, whole]
    rw [List.length_take, List.length_drop]
    omega
  have plain : ∀ c ∈ ((text.drop s.start).take s.length).drop (n - s.start), !isBreak c :=
    fun c later => (layout.unbroken mem).plain c (List.mem_of_mem_drop later)
  have stops : ∀ c ∈ (text.drop (s.start + s.length)).head?, (!isBreak c) = false := by
    rw [List.head?_drop]
    simpa using layout.ends_before_break mem
  rw [lastColumnAt, layout.columnAt_of_span mem low high, cut, takeWhile_run plain stops,
    List.length_drop, List.length_take, List.length_drop]
  omega

end Layout

/-! ## Clamping -/

/-- The offset at which a text comes closest to a line and a column.  The line is clamped first,
    then the column on that line, so that an offset of the text is found again at its own line
    and column. -/
structure Clamps (text : List Char) (line column n : Nat) : Prop where
  inside : n ≤ text.length
  whole : ¬ SplitsBreak text n
  line_eq : lineAt text n = max 1 (min line (lineAt text text.length))
  column_eq : columnAt text n = max 1 (min column (lastColumnAt text n))
  /-- A line and a column of the text are not moved. -/
  exact : ∀ k ≤ text.length, ¬ SplitsBreak text k → lineAt text k = line →
    columnAt text k = column → n = k

namespace LineIndex

variable {text : String} {line : Nat}

theorem clamp_eq (low high n : Nat) (ordered : low ≤ high) :
    clamp low high n = max low (min n high) := by
  unfold clamp
  split
  · omega
  · split <;> omega

theorem lineCount_eq (text : String) :
    (ofText text).lineCount = lineAt text.toList text.toList.length := by
  have last := (ofText_layout text).lineAt_length (Nat.zero_le _)
  rw [lineAt_zero] at last
  rw [lineCount]
  omega

/-- The line that is looked up is one of the text. -/
theorem clamped_span (text : String) (line : Nat) :
    (ofText text).spans[max 1 (min line (ofText text).lineCount) - 1]? =
      some ((ofText text).span line) := by
  have some := (ofText text).lineCount_pos
  have inside : clamp 1 (ofText text).lineCount line - 1 < (ofText text).spans.length := by
    rw [clamp_eq 1 _ line some]
    unfold lineCount at *
    omega
  rw [← clamp_eq 1 _ line some, List.getElem?_eq_getElem inside]
  rfl

theorem offset_eq (text : String) (line column : Nat) :
    (ofText text).offset line column = ((ofText text).span line).start +
      max 1 (min column (((ofText text).span line).length + 1)) - 1 := by
  rw [offset, clamp_eq 1 _ column (by omega)]

/-- An offset is found at its line and its column. -/
theorem offset_lineAt_columnAt {n : Nat} (inside : n ≤ text.toList.length)
    (whole : ¬ SplitsBreak text.toList n) :
    (ofText text).offset (lineAt text.toList n) (columnAt text.toList n) = n := by
  have layout := ofText_layout text
  obtain ⟨s, mem, low, high⟩ :=
    (layout.covers_iff (not_splitsBreak_zero _) (Nat.zero_le n) inside).mpr whole
  obtain ⟨i, there⟩ := List.mem_iff_getElem?.mp mem
  have bound := (List.getElem?_eq_some_iff.mp there).1
  have line_eq : lineAt text.toList n = i + 1 := by
    rw [layout.lineAt_of_span there low high, lineAt_zero, Nat.add_comm]
  have row : max 1 (min (i + 1) (ofText text).lineCount) - 1 = i := by
    unfold lineCount
    omega
  have here := clamped_span text (i + 1)
  rw [row, there] at here
  rw [line_eq, offset_eq, ← Option.some.inj here, layout.columnAt_of_span mem low high]
  omega

theorem clamps_offset (text : String) (line column : Nat) :
    Clamps text.toList line column ((ofText text).offset line column) := by
  have layout := ofText_layout text
  have count := lineCount_eq text
  have here := clamped_span text line
  have place := offset_eq text line column
  generalize (ofText text).span line = s at here place
  have mem := List.mem_of_getElem? here
  have low : s.start ≤ (ofText text).offset line column := by omega
  have high : (ofText text).offset line column ≤ s.start + s.length := by omega
  have inside := Nat.le_trans high (layout.within (Nat.zero_le _) mem)
  have onLine := layout.lineAt_of_span here low high
  rw [lineAt_zero] at onLine
  refine ⟨inside, ?_, by omega, ?_, ?_⟩
  · exact (layout.covers_iff (not_splitsBreak_zero _) (Nat.zero_le _) inside).mp
      ⟨s, mem, low, high⟩
  · rw [layout.columnAt_of_span mem low high, layout.lastColumnAt_of_span mem low high]
    omega
  · rintro k within whole rfl rfl
    exact offset_lineAt_columnAt within whole

end LineIndex

end LivePreview.Text
