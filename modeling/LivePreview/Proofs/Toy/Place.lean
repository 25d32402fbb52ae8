import LivePreview.Proofs.Number.Equality
import LivePreview.Proofs.Text.Lines
import LivePreview.Proofs.Toy.Drawn
import Mathlib.Data.List.DropRight

/-!
# Pages and places

A text is laid out twice, once into its pages and once to look up the page of an offset, with
different bookkeeping.  The two agree (`page_of_offset`): as many breaks are before the line of an
offset as pages are before its page, and that page holds the lines around it, up to the breaks
that enclose them.

So a cursor stands on a page of its text (`cursorPage_lt`): the place it is mapped to need not be
moved to another page, and it is the same point whenever it is mapped again.
-/

namespace LivePreview.Toy

open Text (joinWith splitOn)

variable {above inside below lines : List (List Char)} {line : List Char} {offset : Nat}

/-! ## The text of a page -/

theorem joinWith_append_cons (sep front piece : List Char) (rest : List (List Char)) :
    joinWith sep ((front ++ piece) :: rest) = front ++ joinWith sep (piece :: rest) := by
  cases rest with
  | nil => rfl
  | cons next rest => simp only [joinWith, List.append_assoc]

theorem foldl_addLine_of_ne_nil {page : List Char} (some : page ≠ []) (lines : List (List Char)) :
    lines.foldl addLine page = joinWith ['\n'] (page :: lines) := by
  induction lines generalizing page with
  | nil => rfl
  | cons line lines inductionHypothesis =>
    have added : addLine page line = page ++ '\n' :: line := by
      rw [addLine, List.isEmpty_eq_false_iff.mpr some, if_neg Bool.false_ne_true]
    rw [List.foldl_cons, added, inductionHypothesis (by simp), joinWith_append_cons]
    cases lines <;> simp [joinWith]

/-- Lines are joined by line feeds, but the empty ones at the start of a page leave no trace. -/
theorem foldl_addLine (lines : List (List Char)) :
    lines.foldl addLine [] = joinWith ['\n'] (lines.dropWhile List.isEmpty) := by
  induction lines with
  | nil => rfl
  | cons line lines inductionHypothesis =>
    cases line with
    | nil => exact inductionHypothesis
    | cons c line => exact foldl_addLine_of_ne_nil (List.cons_ne_nil c line) lines

/-! ## Pages and breaks -/

theorem pagesFrom_length (page : List Char) (lines : List (List Char)) :
    (pagesFrom page lines).length = lines.countP isBreak + 1 := by
  induction lines generalizing page with
  | nil => rfl
  | cons line lines inductionHypothesis =>
    unfold pagesFrom
    split
    · next breaks => simp [inductionHypothesis, breaks]
    · next runs => simp [inductionHypothesis, runs]

theorem pagesFrom_append_break (breaks : isBreak line) (page : List Char)
    (above below : List (List Char)) :
    pagesFrom page (above ++ line :: below) = pagesFrom page above ++ pagesFrom [] below := by
  induction above generalizing page with
  | nil => simp [pagesFrom, breaks]
  | cons first above inductionHypothesis =>
    rw [List.cons_append, pagesFrom, pagesFrom]
    split
    · rw [inductionHypothesis, List.cons_append]
    · rw [inductionHypothesis]

theorem pagesFrom_of_plain (plain : ∀ line ∈ lines, ¬ isBreak line) (page : List Char) :
    pagesFrom page lines = [lines.foldl addLine page] := by
  induction lines generalizing page with
  | nil => rfl
  | cons line lines inductionHypothesis =>
    obtain ⟨runs, plain⟩ := List.forall_mem_cons.mp plain
    rw [pagesFrom, if_neg runs, inductionHypothesis plain, List.foldl_cons]

theorem pagesFrom_of_closed (plain : ∀ line ∈ inside, ¬ isBreak line)
    (closed : ∀ line ∈ below.head?, isBreak line) :
    (pagesFrom [] (inside ++ below))[0]? = some (inside.foldl addLine []) := by
  cases below with
  | nil => rw [List.append_nil, pagesFrom_of_plain plain, List.getElem?_cons_zero]
  | cons line below =>
    rw [pagesFrom_append_break (closed line rfl), pagesFrom_of_plain plain, List.singleton_append,
      List.getElem?_cons_zero]

/-- The lines between two breaks are a page, numbered by the breaks above it. -/
theorem pagesFrom_between (opened : ∀ line ∈ above.getLast?, isBreak line)
    (plain : ∀ line ∈ inside, ¬ isBreak line) (closed : ∀ line ∈ below.head?, isBreak line) :
    (pagesFrom [] (above ++ inside ++ below))[above.countP isBreak]? =
      some (inside.foldl addLine []) := by
  rw [List.append_assoc]
  rcases List.eq_nil_or_concat' above with rfl | ⟨front, line, rfl⟩
  · exact pagesFrom_of_closed plain closed
  · have breaks : isBreak line := opened line (by simp)
    have counted : (front ++ [line]).countP isBreak = (pagesFrom [] front).length + 0 := by
      rw [pagesFrom_length, List.countP_append, List.countP_singleton, if_pos breaks]
    rw [List.append_assoc, List.singleton_append, pagesFrom_append_break breaks, counted,
      List.getElem?_append_right (Nat.le_add_right ..), Nat.add_sub_cancel_left]
    exact pagesFrom_of_closed plain closed

/-- Whether `inside` are the lines around the one of a number, up to the breaks that enclose it
    (or the ends of the text).  A break belongs to the lines that it closes. -/
structure Encloses (number : Nat) (above inside below lines : List (List Char)) : Prop where
  whole : above ++ inside ++ below = lines
  opened : ∀ line ∈ above.getLast?, isBreak line
  plain : ∀ line ∈ inside, ¬ isBreak line
  closed : ∀ line ∈ below.head?, isBreak line
  begins : above.length ≤ number
  ends : number ≤ above.length + inside.length
  among : ∀ line ∈ lines[number]?, ¬ isBreak line → inside[number - above.length]? = some line

/-- The breaks before a line are those above the lines around it. -/
theorem Encloses.countP_take {number : Nat} (encloses : Encloses number above inside below lines) :
    (lines.take number).countP isBreak = above.countP isBreak := by
  have cut : lines.take number = above ++ inside.take (number - above.length) := by
    have fits := encloses.ends
    rw [← encloses.whole, List.append_assoc, List.take_append,
      List.take_of_length_le encloses.begins, List.take_append_of_le_length (by omega)]
  have none : (inside.take (number - above.length)).countP isBreak = 0 :=
    List.countP_eq_zero.mpr fun line mem => encloses.plain line (List.mem_of_mem_take mem)
  rw [cut, List.countP_append, none, Nat.add_zero]

/-- The lines around a line are the page that is numbered by the breaks before it. -/
theorem Encloses.page {number : Nat} (encloses : Encloses number above inside below lines) :
    (pagesFrom [] lines)[(lines.take number).countP isBreak]? =
      some (joinWith ['\n'] (inside.dropWhile List.isEmpty)) := by
  rw [encloses.countP_take, ← foldl_addLine, ← encloses.whole]
  exact pagesFrom_between encloses.opened encloses.plain encloses.closed

theorem exists_encloses {number : Nat} (within : number ≤ lines.length) :
    ∃ above inside below, Encloses number above inside below lines := by
  let plain (line : List Char) : Bool := !isBreak line
  have plainly {line : List Char} : plain line ↔ ¬ isBreak line := by simp [plain]
  have cut : (lines.take number).rdropWhile plain ++ (lines.take number).rtakeWhile plain =
      lines.take number := List.rdropWhile_append_rtakeWhile ..
  have size := congrArg List.length cut
  rw [List.length_append, List.length_take, Nat.min_eq_left within] at size
  refine ⟨(lines.take number).rdropWhile plain,
    (lines.take number).rtakeWhile plain ++ (lines.drop number).takeWhile plain,
    (lines.drop number).dropWhile plain, ?_⟩
  constructor
  case whole =>
    rw [← List.append_assoc, cut, List.append_assoc, List.takeWhile_append_dropWhile,
      List.take_append_drop]
  case opened =>
    intro line last
    obtain ⟨some, rfl⟩ := List.mem_getLast?_eq_getLast last
    simpa [plain] using List.rdropWhile_last_not plain (lines.take number) some
  case plain =>
    intro line mem
    rcases List.mem_append.mp mem with before | behind
    · exact plainly.mp (List.mem_rtakeWhile_imp before)
    · exact plainly.mp (List.mem_takeWhile_imp behind)
  case closed =>
    intro line first
    have stops := List.head?_dropWhile_not plain (lines.drop number)
    rw [Option.mem_def.mp first] at stops
    simpa [plain] using stops
  case begins => omega
  case ends =>
    rw [List.length_append]
    omega
  case among =>
    intro line here runs
    have behind : lines.drop number = line :: lines.drop (number + 1) := by
      obtain ⟨bound, rfl⟩ := List.getElem?_eq_some_iff.mp here
      exact List.drop_eq_getElem_cons bound
    have place : number - ((lines.take number).rdropWhile plain).length =
        ((lines.take number).rtakeWhile plain).length + 0 := by omega
    rw [place, List.getElem?_append_right (Nat.le_add_right ..), Nat.add_sub_cancel_left, behind,
      List.takeWhile_cons_of_pos (plainly.mpr runs), List.getElem?_cons_zero]

/-! ## The line of an offset -/

/-- How many of these lines end before an offset, each with a line feed. -/
def endedBefore (lines : List (List Char)) (offset : Nat) : Nat :=
  ((lines.flatMap (· ++ ['\n'])).take offset).count '\n'

/-- How many lines of a text end before an offset: the number of the line that contains it, a
    line feed being part of the line that it ends, and of all lines for an offset past the end. -/
def lineNumber (text : String) (offset : Nat) : Nat :=
  ((text.toList ++ ['\n']).take offset).count '\n'

/-- Whether an offset is in the line of a number, or at its end. -/
def Contains (lines : List (List Char)) (number offset : Nat) : Prop :=
  let start := ((lines.take number).map (·.length + 1)).sum
  ∃ line, lines[number]? = some line ∧ start ≤ offset ∧ offset ≤ start + line.length

theorem endedBefore_of_le (plain : '\n' ∉ line) (lines : List (List Char))
    (within : offset ≤ line.length) : endedBefore (line :: lines) offset = 0 := by
  rw [endedBefore, List.flatMap_cons, List.append_assoc, List.take_append_of_le_length within]
  exact List.count_eq_zero.mpr fun mem => plain (List.mem_of_mem_take mem)

theorem endedBefore_of_lt (plain : '\n' ∉ line) (lines : List (List Char))
    (past : line.length < offset) :
    endedBefore (line :: lines) offset = endedBefore lines (offset - (line.length + 1)) + 1 := by
  have size : (line ++ ['\n']).length = line.length + 1 := List.length_append ..
  rw [endedBefore, List.flatMap_cons, List.take_append, List.take_of_length_le (by omega),
    List.count_append, List.count_append, List.count_eq_zero.mpr plain, List.count_singleton_self,
    size, endedBefore]
  omega

theorem endedBefore_mono (lines : List (List Char)) {further : Nat} (le : offset ≤ further) :
    endedBefore lines offset ≤ endedBefore lines further :=
  (List.take_prefix_take_left le).sublist.count_le '\n'

theorem endedBefore_le_length (plain : ∀ line ∈ lines, '\n' ∉ line) (offset : Nat) :
    endedBefore lines offset ≤ lines.length := by
  induction lines generalizing offset with
  | nil => simp [endedBefore]
  | cons line lines inductionHypothesis =>
    obtain ⟨first, plain⟩ := List.forall_mem_cons.mp plain
    rcases Nat.lt_or_ge line.length offset with past | within
    · rw [endedBefore_of_lt first lines past]
      exact Nat.succ_le_succ (inductionHypothesis plain _)
    · rw [endedBefore_of_le first lines within]
      exact Nat.zero_le _

/-- An offset is in the line behind those that end before it, if there is one. -/
theorem contains_or_ended (plain : ∀ line ∈ lines, '\n' ∉ line) (offset : Nat) :
    offset < (lines.map (·.length + 1)).sum ∧ Contains lines (endedBefore lines offset) offset ∨
    (lines.map (·.length + 1)).sum ≤ offset ∧ endedBefore lines offset = lines.length := by
  induction lines generalizing offset with
  | nil => exact .inr ⟨Nat.zero_le offset, by simp [endedBefore]⟩
  | cons line lines inductionHypothesis =>
    obtain ⟨first, plain⟩ := List.forall_mem_cons.mp plain
    rw [List.map_cons, List.sum_cons]
    rcases Nat.lt_or_ge line.length offset with past | within
    · rw [endedBefore_of_lt first lines past]
      rcases inductionHypothesis plain (offset - (line.length + 1)) with
        ⟨inside, own, here, starts, reaches⟩ | ⟨outside, ended⟩
      · refine .inl ⟨by omega, own, here, ?_⟩
        rw [List.take_succ_cons, List.map_cons, List.sum_cons]
        omega
      · exact .inr ⟨by omega, by rw [ended, List.length_cons]⟩
    · rw [endedBefore_of_le first lines within]
      exact .inl ⟨by omega, line, rfl, Nat.zero_le _, by simpa using within⟩

/-- The page of an offset is told by the breaks among the lines that end before it. -/
theorem locateFrom_page (plain : ∀ line ∈ lines, '\n' ∉ line) (page place offset : Nat) :
    (locateFrom page place offset lines).1 =
      page + (lines.take (endedBefore lines offset)).countP isBreak := by
  fun_induction locateFrom page place offset lines with
  | case1 => simp
  | case2 page place offset line lines within =>
    rw [endedBefore_of_le (plain line List.mem_cons_self) lines within]
    rfl
  | case3 page place offset line lines past breaks inductionHypothesis =>
    obtain ⟨first, plain⟩ := List.forall_mem_cons.mp plain
    rw [inductionHypothesis plain, endedBefore_of_lt first lines (Nat.lt_of_not_le past),
      List.take_succ_cons, List.countP_cons_of_pos breaks]
    omega
  | case4 page place offset line lines past runs inductionHypothesis =>
    obtain ⟨first, plain⟩ := List.forall_mem_cons.mp plain
    rw [inductionHypothesis plain, endedBefore_of_lt first lines (Nat.lt_of_not_le past),
      List.take_succ_cons, List.countP_cons_of_neg runs]

/-! ## The page of an offset -/

theorem lineNumber_eq (text : String) (offset : Nat) :
    lineNumber text offset = endedBefore (splitOn '\n' text.toList) offset := by
  rw [lineNumber, endedBefore, Text.flatMap_splitOn]

theorem locate_page (text : String) (offset : Nat) :
    (locate text offset).1 =
      ((splitOn '\n' text.toList).take (lineNumber text offset)).countP isBreak := by
  rw [locate, locateFrom_page fun _ => Text.not_mem_of_mem_splitOn, Nat.zero_add, lineNumber_eq]

theorem locate_lt_length (text : String) (offset : Nat) :
    (locate text offset).1 < (splitPages text).length := by
  rw [locate_page, splitPages, List.length_map, pagesFrom_length, Nat.lt_succ_iff]
  exact (List.take_sublist ..).countP_le

theorem locate_mono (text : String) {further : Nat} (le : offset ≤ further) :
    (locate text offset).1 ≤ (locate text further).1 := by
  rw [locate_page, locate_page, lineNumber_eq, lineNumber_eq]
  exact (List.take_prefix_take_left (endedBefore_mono _ le)).sublist.countP_le

theorem sum_splitOn (text : String) :
    ((splitOn '\n' text.toList).map (·.length + 1)).sum = text.length + 1 := by
  have whole := congrArg List.length (Text.flatMap_splitOn '\n' text.toList)
  simpa [List.length_flatMap, String.length_toList] using whole

/-- The line of an offset is the one that contains it; past the end of the text all lines are
    before it.  The page of the offset is numbered by the breaks before this line, it does not
    fall as the offset grows, and it is one of the pages of the text: the one that holds the lines
    around the offset, without the empty ones at its start. -/
theorem page_of_offset (text : String) (offset : Nat) :
    let lines := splitOn '\n' text.toList
    let number := lineNumber text offset
    let page := (locate text offset).1
    (offset ≤ text.length → Contains lines number offset) ∧
    (text.length < offset → number = lines.length) ∧
    page = (lines.take number).countP isBreak ∧
    (∀ further, offset ≤ further → page ≤ (locate text further).1) ∧
    page < (splitPages text).length ∧
    ∃ above inside below, Encloses number above inside below lines ∧
      (splitPages text)[page]? =
        some (String.ofList (joinWith ['\n'] (inside.dropWhile List.isEmpty))) := by
  intro lines number page
  have plain : ∀ line ∈ lines, '\n' ∉ line := fun _ => Text.not_mem_of_mem_splitOn
  have place := contains_or_ended plain offset
  rw [← lineNumber_eq, sum_splitOn] at place
  refine ⟨fun within => ?_, fun past => ?_, locate_page text offset,
    fun _ le => locate_mono text le, locate_lt_length text offset, ?_⟩
  · exact (place.resolve_right fun outside => by omega).2
  · exact (place.resolve_left fun inside => by omega).2
  · have bound : number ≤ lines.length :=
      (lineNumber_eq text offset).trans_le (endedBefore_le_length plain offset)
    obtain ⟨above, inside, below, encloses⟩ := exists_encloses bound
    have found := encloses.page
    rw [← locate_page] at found
    refine ⟨above, inside, below, encloses, ?_⟩
    rw [splitPages, List.getElem?_map, found, Option.map_some]

/-! ## The place of the cursor -/

theorem cursorPage_lt (source : Snapshot) :
    cursorPage source < (splitPages source.content).length :=
  locate_lt_length source.content source.cursor

/-- The key of the page that the cursor of a source is on. -/
def cursorKey (source : Snapshot) : PageKey :=
  .of (pagePng ((splitPages source.content).get ⟨cursorPage source, cursorPage_lt source⟩))
    (cursorPage source)

theorem keysOf_cursorPage (source : Snapshot) :
    (keysOf (splitPages source.content))[cursorPage source]? = some (cursorKey source) := by
  rw [keysOf_getElem?, List.getElem?_eq_getElem (cursorPage_lt source)]
  rfl

/-- The place of the cursor of a source. -/
def cursorPlace (source : Snapshot) : Position :=
  ⟨cursorPage source, 0.0, Float.ofNat (locate source.content source.cursor).2 * 10.0⟩

theorem cursorPlace_samePoint (source : Snapshot) :
    (cursorPlace source).samePoint (cursorPlace source) = true :=
  have zero : (0.0 : Float).isNaN = false := by decide +kernel
  Position.samePoint_self zero (Number.isNaN_scaled _ (by decide +kernel))

theorem cursorPlace_clamp (source : Snapshot) :
    (cursorPlace source).clamp (splitPages source.content).length = cursorPlace source := by
  have within := cursorPage_lt source
  simp only [Position.clamp, cursorPlace, Nat.min_eq_left (Nat.le_sub_one_of_lt within)]

end LivePreview.Toy
