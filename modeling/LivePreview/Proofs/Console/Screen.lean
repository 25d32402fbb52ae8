import LivePreview.Console.Status
import LivePreview.Proofs.Text.Digits
import LivePreview.Proofs.Text.Lines
import Mathlib.Data.List.DropRight
import Mathlib.Data.List.Induction
import Mathlib.Logic.Function.Iterate

/-!
# The screen while a document is watched

Log lines and status messages are printed in any order.  A message clears as many rows as the
block before it has, counted from the cursor, and so reaches that block only if nothing was logged
behind it.  `Board` tells what a terminal shows after any output (`print_eq_board`): for every row
of the log that a message clears, a row of the earlier block stays.  Hence the screen shows the
whole log and the latest block alone exactly if no log line came behind a block
(`shown_after_status`).
-/

namespace LivePreview.Console

open Text (splitOn)

/-! ## A terminal -/

/-- The screen of a terminal that neither wraps rows nor runs out of them.  Of the characters of a
    text only the line feed ends a row; the colours are part of it. -/
structure Screen where
  /-- The rows above the cursor, the nearest first. -/
  above : List (List Char)
  /-- The row of the cursor, up to the cursor. -/
  left : List Char
  /-- The row of the cursor, from the cursor on. -/
  right : List Char
  /-- The rows below the cursor, the nearest first. -/
  below : List (List Char)
  deriving DecidableEq

namespace Screen

variable {s : Screen} {rows more : List (List Char)} {row : List Char}

/-- The screen that shows these rows, with the cursor at the start of the empty row below. -/
def ofRows (rows : List (List Char)) : Screen :=
  ⟨rows.reverse, [], [], []⟩

def put (s : Screen) (c : Char) : Screen :=
  if c = '\n' then ⟨(s.left ++ s.right) :: s.above, [], s.below.headD [], s.below.tail⟩
  else { s with left := s.left ++ [c], right := s.right.tail }

/-- One row up in the same column, if there is a row. -/
def rise (s : Screen) : Screen :=
  match s.above with
  | [] => s
  | row :: above =>
    let column := s.left.length
    { above
      left := row.take column ++ List.replicate (column - row.length) ' '
      right := row.drop column
      below := (s.left ++ s.right) :: s.below }

/-- Carries a command out.  A terminal takes a distance of zero for one. -/
def perform (s : Screen) : Command → Screen
  | .text text => text.toList.foldl put s
  | .clearLine => { s with right := [] }
  | .up distance => rise^[max distance 1] s
  | .clearDown => { s with right := [], below := [] }

def run (s : Screen) (commands : List Command) : Screen :=
  commands.foldl perform s

theorem ofRows_inj : ofRows rows = ofRows more ↔ rows = more := by
  simp [ofRows]

/-! ### Printing below the rows -/

theorem put_plain (plain : '\n' ∉ row) (above : List (List Char)) (left : List Char) :
    row.foldl put ⟨above, left, [], []⟩ = ⟨above, left ++ row, [], []⟩ := by
  induction row generalizing left with
  | nil => rw [List.append_nil, List.foldl_nil]
  | cons c row inductionHypothesis =>
    simp only [List.mem_cons, not_or] at plain
    have next : put ⟨above, left, [], []⟩ c = ⟨above, left ++ [c], [], []⟩ :=
      if_neg (Ne.symm plain.1)
    rw [List.foldl_cons, next, inductionHypothesis plain.2, List.append_assoc,
      List.singleton_append]

theorem put_row (plain : '\n' ∉ row) (rows : List (List Char)) :
    (row ++ ['\n']).foldl put (ofRows rows) = ofRows (rows ++ [row]) := by
  rw [ofRows, List.foldl_append, put_plain plain]
  simp [put, ofRows]

theorem put_rows (plain : ∀ row ∈ more, '\n' ∉ row) (rows : List (List Char)) :
    (more.flatMap (· ++ ['\n'])).foldl put (ofRows rows) = ofRows (rows ++ more) := by
  induction more generalizing rows with
  | nil => rw [List.append_nil, List.flatMap_nil, List.foldl_nil]
  | cons row more inductionHypothesis =>
    obtain ⟨first, plain⟩ := List.forall_mem_cons.mp plain
    rw [List.flatMap_cons, List.foldl_append, put_row first, inductionHypothesis plain,
      List.append_assoc, List.singleton_append]

/-- A text that ends in a line feed is shown below the rows, one row for each of its lines. -/
theorem perform_text (rows : List (List Char)) (text : String) :
    (ofRows rows).perform (.text (text ++ "\n")) = ofRows (rows ++ splitOn '\n' text.toList) := by
  have lines : (text ++ "\n").toList = (splitOn '\n' text.toList).flatMap (· ++ ['\n']) := by
    rw [Text.flatMap_splitOn, String.toList_append]
    rfl
  rw [perform, lines, put_rows fun _ => Text.not_mem_of_mem_splitOn]

/-! ### Clearing the rows -/

theorem rise_of_start (start : s.left = []) : s.rise.left = [] ∧ s.rise.above = s.above.tail := by
  rcases s with ⟨_ | ⟨row, above⟩, left, right, below⟩
  · exact ⟨start, rfl⟩
  · obtain rfl : left = [] := start
    simp [rise]

theorem iterate_rise_of_start (start : s.left = []) (n : Nat) :
    (rise^[n] s).left = [] ∧ (rise^[n] s).above = s.above.drop n := by
  induction n generalizing s with
  | zero => exact ⟨start, rfl⟩
  | succ n inductionHypothesis =>
    obtain ⟨left, above⟩ := rise_of_start start
    rw [Function.iterate_succ_apply, ← List.drop_tail, ← above]
    exact inductionHypothesis left

/-- Going up and clearing what is below drops the last rows. -/
theorem clear_rows (rows : List (List Char)) {n : Nat} (some : 0 < n) :
    ((ofRows rows).perform (.up n)).perform .clearDown = ofRows (rows.rdrop n) := by
  obtain ⟨left, above⟩ := iterate_rise_of_start (s := ofRows rows) rfl n
  rw [perform, perform, Nat.max_eq_left some, left, above, ofRows, ofRows,
    List.rdrop_eq_reverse_drop_reverse, List.reverse_reverse]

end Screen

/-! ## Rows of log lines and blocks -/

/-- The rows of a line of the log. -/
@[irreducible] def LogLine.rows (line : LogLine) : List (List Char) :=
  splitOn '\n'
    (bold (coloured (topicColour line.topic) s!"[{line.topic}]") ++ " " ++ line.message).toList

/-- What stands in front of a message. -/
def Status.lead (time : String) (status : Status) : String :=
  dimmed s!"[{time}]" ++ " " ++ status.symbol ++ " "

/-- The rows of the block that shows a message. -/
@[irreducible] def Status.rows (time : String) (status : Status) : List (List Char) :=
  splitOn '\n' (status.lead time ++ status.message).toList

theorem LogLine.run_commands (line : LogLine) (rows : List (List Char)) :
    (Screen.ofRows rows).run line.commands = .ofRows (rows ++ line.rows) := by
  have clear : (Screen.ofRows rows).perform .clearLine = .ofRows rows := rfl
  rw [commands, Screen.run, List.foldl_cons, clear, List.foldl_cons, List.foldl_nil,
    Screen.perform_text, LogLine.rows]

theorem feed_not_mem_clock (seconds : Nat) : '\n' ∉ (clock seconds).toList := by
  have digits (n : Nat) : '\n' ∉ Nat.toDigits 10 n := Text.not_mem_toDigits (by decide) n
  have two (n : Nat) : '\n' ∉ (clock.two n).toList := by
    unfold clock.two
    split <;> simp [digits, toString]
  simp [clock, two, toString]

theorem Status.feed_not_mem_symbol (status : Status) : '\n' ∉ status.symbol.toList := by
  have codes (n : Nat) : '\n' ∉ Nat.toDigits 10 n := Text.not_mem_toDigits (by decide) n
  cases status <;> simp [symbol, green, coloured, toString, codes]

theorem Status.feed_not_mem_lead {time : String} (plain : '\n' ∉ time.toList) (status : Status) :
    '\n' ∉ (status.lead time).toList := by
  simp [lead, dimmed, toString, plain, feed_not_mem_symbol]

theorem Status.rows_eq {time : String} (plain : '\n' ∉ time.toList) (status : Status) :
    status.rows time =
      (splitOn '\n' status.message.toList).modifyHead ((status.lead time).toList ++ ·) := by
  rw [rows, String.toList_append,
    Text.splitOn_append_of_not_mem (feed_not_mem_lead plain status)]

theorem Status.length_rows {time : String} (plain : '\n' ∉ time.toList) (status : Status) :
    (status.rows time).length = lineCount status.message := by
  rw [rows_eq plain, List.length_modifyHead, Text.length_splitOn, lineCount]

/-- A block is opened in faint letters. -/
def faint : List Char :=
  "\x1b[2m".toList

/-- A line of the log is opened in bold letters. -/
def strong : List Char :=
  "\x1b[1m".toList

theorem ne_of_styles {row other : List Char} (block : faint <+: row) (log : strong <+: other) :
    row ≠ other := by
  rintro rfl
  exact absurd ((List.prefix_of_prefix_length_le block log (by decide)).eq_of_length (by decide))
    (by decide)

theorem prefix_of_head?_splitOn {lead cs : List Char} (plain : '\n' ∉ lead) :
    ∀ row ∈ (splitOn '\n' (lead ++ cs)).head?, lead <+: row := by
  rw [Text.splitOn_append_of_not_mem plain]
  cases splitOn '\n' cs with
  | nil => exact nofun
  | cons row rest =>
    intro first head
    obtain rfl : lead ++ row = first := Option.some.inj head
    exact List.prefix_append lead row

theorem LogLine.rows_ne_nil (line : LogLine) : line.rows ≠ [] := by
  rw [rows]
  exact Text.splitOn_ne_nil _ _

theorem LogLine.strong_rows (line : LogLine) : ∀ row ∈ line.rows.head?, strong <+: row := by
  rw [rows, bold]
  simp only [String.toList_append, List.append_assoc, toString]
  exact prefix_of_head?_splitOn (by decide)

theorem Status.rows_ne_nil (time : String) (status : Status) : status.rows time ≠ [] := by
  rw [rows]
  exact Text.splitOn_ne_nil _ _

theorem Status.faint_rows (time : String) (status : Status) :
    ∀ row ∈ (status.rows time).head?, faint <+: row := by
  rw [rows, lead, dimmed]
  simp only [String.toList_append, List.append_assoc, toString]
  exact prefix_of_head?_splitOn (by decide)

theorem StatusBlock.run_display (block : StatusBlock) (low : block.lines ≤ 65535) (time : String)
    (status : Status) (rows : List (List Char)) :
    (Screen.ofRows rows).run (block.display time status).1 =
      .ofRows (rows.rdrop block.lines ++ status.rows time) := by
  have shown (rows : List (List Char)) :
      (Screen.ofRows rows).perform
          (.text (dimmed s!"[{time}]" ++ " " ++ status.symbol ++ " " ++ status.message ++ "\n")) =
        .ofRows (rows ++ status.rows time) := by
    rw [Screen.perform_text, Status.rows, Status.lead]
  rw [display, Screen.run, List.foldl_append]
  split
  · next some =>
    have distance : block.lines % (1 <<< 16) = block.lines := Nat.mod_eq_of_lt (by omega)
    simp only [distance, List.foldl_cons, List.foldl_nil]
    rw [Screen.clear_rows rows some, shown]
  · next none =>
    simp only [Nat.eq_zero_of_not_pos none, List.rdrop_zero, List.foldl_cons, List.foldl_nil]
    rw [shown]

/-! ## Outputs -/

/-- What is printed while a document is watched: a line of the log, or a message at a time. -/
inductive Output where
  | log (line : LogLine)
  | message (seconds : Nat) (status : Status)
  deriving DecidableEq

namespace Output

def isMessage : Output → Bool
  | .log _ => false
  | .message _ _ => true

/-- The lines of the message, if it is one. -/
def height : Output → Nat
  | .log _ => 0
  | .message _ status => lineCount status.message

/-- Prints to a terminal, with what the program knows of the block on its screen. -/
def print : Screen × StatusBlock → Output → Screen × StatusBlock
  | (screen, block), .log line => (screen.run line.commands, block)
  | (screen, block), .message seconds status =>
    let (commands, next) := block.display (clock seconds) status
    (screen.run commands, next)

theorem print_log (rows : List (List Char)) (block : StatusBlock) (line : LogLine) :
    print (.ofRows rows, block) (.log line) = (.ofRows (rows ++ line.rows), block) :=
  congrArg (·, block) (line.run_commands rows)

theorem print_message (rows : List (List Char)) {block : StatusBlock} (low : block.lines ≤ 65535)
    (seconds : Nat) (status : Status) :
    print (.ofRows rows, block) (.message seconds status) =
      (.ofRows (rows.rdrop block.lines ++ status.rows (clock seconds)),
        ⟨lineCount status.message⟩) :=
  congrArg (·, _) (block.run_display low (clock seconds) status rows)

end Output

/-- The screen after these outputs, below what it showed before. -/
def screenAfter (top : List (List Char)) (history : List Output) : Screen :=
  (history.foldl Output.print (.ofRows top, .none)).1

/-- The rows of the log. -/
def logged (history : List Output) : List (List Char) :=
  history.flatMap fun
    | .log line => line.rows
    | .message _ _ => []

/-- Whether no line of the log is printed behind a message. -/
def LogFirst (history : List Output) : Prop :=
  history.Pairwise fun earlier later => earlier.isMessage → later.isMessage

instance (history : List Output) : Decidable (LogFirst history) :=
  inferInstanceAs (Decidable (history.Pairwise _))

/-! ## The board -/

/-- What the screen shows, from top to bottom. -/
structure Board where
  /-- What no later message clears. -/
  kept : List (List Char)
  /-- The latest block. -/
  block : List (List Char)
  /-- What was logged since. -/
  since : List (List Char)

namespace Board

variable {history : List Output} {output : Output}

def rows (b : Board) : List (List Char) :=
  b.kept ++ b.block ++ b.since

/-- A message clears as many rows as the block has, from below: of the block and of what was
    logged since, as many stay as were logged. -/
def next (b : Board) : Output → Board
  | .log line => { b with since := b.since ++ line.rows }
  | .message seconds status =>
    ⟨b.kept ++ (b.block ++ b.since).take b.since.length, status.rows (clock seconds), []⟩

theorem next_log (b : Board) (line : LogLine) :
    b.next (.log line) = ⟨b.kept, b.block, b.since ++ line.rows⟩ := rfl

theorem next_message (b : Board) (seconds : Nat) (status : Status) :
    b.next (.message seconds status) =
      ⟨b.kept ++ (b.block ++ b.since).take b.since.length, status.rows (clock seconds), []⟩ := rfl

def ofHistory (history : List Output) : Board :=
  history.foldl next ⟨[], [], []⟩

theorem ofHistory_concat (history : List Output) (output : Output) :
    ofHistory (history ++ [output]) = (ofHistory history).next output :=
  List.foldl_concat ..

theorem logFirst_concat :
    LogFirst (history ++ [output]) ↔
      LogFirst history ∧ ∀ earlier ∈ history, earlier.isMessage → output.isMessage := by
  simp [LogFirst, List.pairwise_append]

/-- The rows that a message leaves of the block and the log behind it are the first ones. -/
theorem rdrop_rows (b : Board) (top : List (List Char)) :
    (top ++ b.rows).rdrop b.block.length =
      top ++ b.kept ++ (b.block ++ b.since).take b.since.length := by
  have size : (top ++ b.rows).length - b.block.length =
      (top ++ b.kept).length + b.since.length := by
    simp only [rows, List.length_append]
    omega
  have whole : top ++ b.rows = (top ++ b.kept) ++ (b.block ++ b.since) := by
    simp only [rows, List.append_assoc]
  rw [List.rdrop, size, whole, List.take_length_add_append]

theorem length_block_le (low : ∀ output ∈ history, output.height ≤ 65535) :
    (ofHistory history).block.length ≤ 65535 := by
  induction history using List.reverseRecOn with
  | nil => exact Nat.zero_le _
  | append_singleton history output inductionHypothesis =>
    rw [ofHistory_concat]
    cases output with
    | log line => exact inductionHypothesis fun output mem => low output (by simp [mem])
    | message seconds status =>
      have lower : (Output.message seconds status).height ≤ 65535 := low _ (by simp)
      rwa [next_message, Status.length_rows (feed_not_mem_clock seconds)]

/-- The screen shows the board, and the program knows the height of the block. -/
theorem print_eq_board (top : List (List Char)) {history : List Output}
    (low : ∀ output ∈ history, output.height ≤ 65535) :
    history.foldl Output.print (.ofRows top, .none) =
      (.ofRows (top ++ (ofHistory history).rows), ⟨(ofHistory history).block.length⟩) := by
  induction history using List.reverseRecOn with
  | nil => simp [ofHistory, rows, StatusBlock.none]
  | append_singleton history output inductionHypothesis =>
    have before : ∀ output ∈ history, output.height ≤ 65535 :=
      fun output mem => low output (by simp [mem])
    rw [List.foldl_concat, inductionHypothesis before, ofHistory_concat]
    cases output with
    | log line =>
      rw [Output.print_log, next_log, List.append_assoc, rows, rows, List.append_assoc]
    | message seconds status =>
      rw [Output.print_message _ (length_block_le before), rdrop_rows, next_message,
        ← Status.length_rows (feed_not_mem_clock seconds) status]
      simp only [rows, List.append_assoc, List.append_nil]

theorem block_eq_nil_iff :
    (ofHistory history).block = [] ↔ ∀ earlier ∈ history, ¬ earlier.isMessage := by
  induction history using List.reverseRecOn with
  | nil => simp [ofHistory]
  | append_singleton history output inductionHypothesis =>
    rw [ofHistory_concat]
    cases output with
    | log line => simpa [next, Output.isMessage, or_imp, forall_and] using inductionHypothesis
    | message seconds status => simp [next, Output.isMessage, status.rows_ne_nil]

/-- Whether the first rows tell the block from the log. -/
structure Told (b : Board) : Prop where
  block : ∀ row ∈ b.block.head?, faint <+: row
  since : ∀ row ∈ b.since.head?, strong <+: row

theorem told_ofHistory (history : List Output) : (ofHistory history).Told := by
  induction history using List.reverseRecOn with
  | nil => exact ⟨nofun, nofun⟩
  | append_singleton history output inductionHypothesis =>
    rw [ofHistory_concat]
    cases output with
    | log line =>
      refine ⟨inductionHypothesis.block, fun row head => ?_⟩
      rw [next_log, List.head?_append, Option.mem_def, Option.or_eq_some_iff] at head
      rcases head with earlier | ⟨-, own⟩
      · exact inductionHypothesis.since row earlier
      · exact line.strong_rows row own
    | message seconds status =>
      rw [next_message]
      exact ⟨status.faint_rows (clock seconds), nofun⟩

theorem logged_concat (history : List Output) (output : Output) :
    logged (history ++ [output]) = logged history ++ logged [output] :=
  List.flatMap_append ..

theorem logged_message (seconds : Nat) (status : Status) :
    logged [.message seconds status] = [] := rfl

theorem whole_next_log {b : Board} {log : List (List Char)} (whole : b.kept ++ b.since = log)
    (line : LogLine) :
    (b.next (.log line)).kept ++ (b.next (.log line)).since = log ++ logged [.log line] := by
  rw [next_log, ← whole]
  simp [logged]

/-- While the log comes first all of it is on the board, and none of it behind a block. -/
theorem whole_of_logFirst (first : LogFirst history) :
    (ofHistory history).kept ++ (ofHistory history).since = logged history ∧
      ((ofHistory history).block = [] ∨ (ofHistory history).since = []) := by
  induction history using List.reverseRecOn with
  | nil => exact ⟨rfl, .inl rfl⟩
  | append_singleton history output inductionHypothesis =>
    obtain ⟨first, ordered⟩ := logFirst_concat.mp first
    obtain ⟨whole, apart⟩ := inductionHypothesis first
    rw [ofHistory_concat, logged_concat]
    cases output with
    | log line =>
      have none : (ofHistory history).block = [] := block_eq_nil_iff.mpr fun earlier mem shown =>
        absurd (ordered earlier mem shown) Bool.false_ne_true
      exact ⟨whole_next_log whole line, .inl none⟩
    | message seconds status =>
      rw [next_message, logged_message, List.append_nil, ← whole]
      refine ⟨?_, .inr rfl⟩
      rcases apart with none | none <;> simp [none]

/-- Whether a row was lost for good: there is another one in its place that no message clears. -/
def Loses (b : Board) (log : List (List Char)) : Prop :=
  ∃ before row other rest more, b.kept = before ++ row :: rest ∧ log = before ++ other :: more ∧
    row ≠ other

/-- Whether a row of the log is behind the block, where the next message clears it. -/
def Risks (b : Board) (log : List (List Char)) : Prop :=
  b.kept ++ b.since = log ∧ b.block ≠ [] ∧ b.since ≠ []

theorem kept_prefix_next (b : Board) (output : Output) : b.kept <+: (b.next output).kept := by
  cases output with
  | log line => exact List.prefix_refl _
  | message seconds status => exact List.prefix_append ..

theorem Loses.next {b : Board} {log : List (List Char)} (loses : b.Loses log) (output : Output) :
    (b.next output).Loses (log ++ logged [output]) := by
  obtain ⟨before, row, other, rest, more, kept, rfl, differs⟩ := loses
  obtain ⟨behind, kept'⟩ := b.kept_prefix_next output
  refine ⟨before, row, other, rest ++ behind, more ++ logged [output], ?_, by simp, differs⟩
  rw [← kept', kept, List.append_assoc, List.cons_append]

/-- A message that comes behind a row of the log puts a row of the block in its place. -/
theorem Risks.loses {b : Board} {log : List (List Char)} (told : b.Told) (risks : b.Risks log)
    (seconds : Nat) (status : Status) : (b.next (.message seconds status)).Loses log := by
  obtain ⟨rfl, some, behind⟩ := risks
  obtain ⟨row, rest, block⟩ := List.exists_cons_of_ne_nil some
  obtain ⟨other, more, since⟩ := List.exists_cons_of_ne_nil behind
  refine ⟨b.kept, row, other, (rest ++ b.since).take more.length, more, ?_, by rw [since], ?_⟩
  · rw [next_message, block, since, List.length_cons, List.cons_append, List.take_succ_cons]
  · exact ne_of_styles (told.block row (by simp [block])) (told.since other (by simp [since]))

theorem risks_or_loses (behind : ¬ LogFirst history) :
    (ofHistory history).Risks (logged history) ∨ (ofHistory history).Loses (logged history) := by
  induction history using List.reverseRecOn with
  | nil => exact absurd .nil behind
  | append_singleton history output inductionHypothesis =>
    rw [ofHistory_concat, logged_concat]
    cases output with
    | log line =>
      have new : ((ofHistory history).next (.log line)).since ≠ [] := by
        simp [next_log, line.rows_ne_nil]
      by_cases first : LogFirst history
      · have shown : (ofHistory history).block ≠ [] := fun none => behind <|
          logFirst_concat.mpr ⟨first, fun earlier mem message =>
            absurd message (block_eq_nil_iff.mp none earlier mem)⟩
        exact .inl ⟨whole_next_log (whole_of_logFirst first).1 line, shown, new⟩
      · rcases inductionHypothesis first with ⟨whole, shown, -⟩ | loses
        · exact .inl ⟨whole_next_log whole line, shown, new⟩
        · exact .inr (loses.next _)
    | message seconds status =>
      have earlier : ¬ LogFirst history := fun first =>
        behind (logFirst_concat.mpr ⟨first, fun _ _ _ => rfl⟩)
      rcases inductionHypothesis earlier with risks | loses
      · rw [logged_message, List.append_nil]
        exact .inr (risks.loses (told_ofHistory history) seconds status)
      · exact .inr (loses.next _)

/-- Above the block of a message stands the log alone exactly if the log came first. -/
theorem kept_eq_iff (seconds : Nat) (status : Status) :
    ((ofHistory history).next (.message seconds status)).kept = logged history ↔
      LogFirst history := by
  constructor
  · intro whole
    by_contra behind
    have later : ¬ LogFirst (history ++ [.message seconds status]) :=
      fun first => behind (logFirst_concat.mp first).1
    have lost := risks_or_loses later
    rw [ofHistory_concat, logged_concat, logged_message, List.append_nil] at lost
    rcases lost with ⟨-, -, since⟩ | ⟨before, row, other, rest, more, kept, log, differs⟩
    · exact since rfl
    · rw [kept, log, List.append_cancel_left_eq, List.cons.injEq] at whole
      exact differs whole.1
  · intro first
    obtain ⟨whole, apart⟩ := whole_of_logFirst first
    rw [next_message, ← whole]
    rcases apart with none | none <;> simp [none]

end Board

/-! ## After a message -/

/-- A message puts its block below what the board keeps: the rows that the messages before it
    kept, and of the block before it and the rows logged since as many as were logged.  The screen
    shows the whole log in order, and behind it the new block alone, exactly if no line of the log
    was printed behind a message. -/
theorem shown_after_status (top : List (List Char)) (history : List Output)
    (low : ∀ output ∈ history, output.height ≤ 65535) (seconds : Nat) (status : Status) :
    let screen := screenAfter top (history ++ [.message seconds status])
    let board := Board.ofHistory history
    let block := status.rows (clock seconds)
    screen = .ofRows (top ++ board.kept ++ (board.block ++ board.since).take board.since.length ++
      block) ∧
    (screen = .ofRows (top ++ logged history ++ block) ↔ LogFirst history) := by
  intro screen board block
  have shown : screen = .ofRows (top ++ (board.next (.message seconds status)).kept ++ block) := by
    have printed := Board.print_eq_board top low
    have bound := Board.length_block_le low
    simp only [screen, screenAfter]
    rw [List.foldl_concat, printed, Output.print_message _ bound, Board.rdrop_rows,
      Board.next_message, List.append_assoc top]
  refine ⟨?_, ?_⟩
  · rw [shown, Board.next_message, List.append_assoc top board.kept]
  · rw [shown, Screen.ofRows_inj, List.append_cancel_right_eq, List.append_cancel_left_eq]
    exact Board.kept_eq_iff seconds status

/-- A line of the log, then a failure with its details. -/
def failedOnce : List Output :=
  [.log (.log "watch" "watching /w"), .message 0 (.error "failed" "error: x")]

/-- The success that follows replaces both rows of the failure, and the log stays. -/
theorem failure_replaced :
    (∀ output ∈ failedOnce, output.height ≤ 65535) ∧ LogFirst failedOnce ∧
    screenAfter [] (failedOnce ++ [.message 1 (.success "1 page(s)")]) =
      .ofRows ["\x1b[1m\x1b[92m[watch]\x1b[39m\x1b[0m watching /w".toList,
        "\x1b[2m[00:00:01]\x1b[0m \x1b[32m✓\x1b[39m 1 page(s)".toList] := by
  have low : ∀ output ∈ failedOnce, output.height ≤ 65535 := by decide +kernel
  have first : LogFirst failedOnce := by decide
  have shown := (shown_after_status [] failedOnce low 1 (.success "1 page(s)")).2.mpr first
  exact ⟨low, first, shown.trans (by decide +kernel)⟩

/-- A document with a warning that is compiled twice: each time the warning is logged before the
    message. -/
def twiceWarned : List Output :=
  [.log (.log "warning" "1 warning(s) in m.typ"), .message 0 (.warning "1 page(s)\nwarning: x"),
    .log (.log "warning" "1 warning(s) in m.typ")]

/-- The second message clears the line that was logged for it and leaves the first row of the
    earlier block. -/
theorem logged_warning_lost :
    ¬ ∀ (top : List (List Char)) (history : List Output),
      (∀ output ∈ history, output.height ≤ 65535) →
      ∀ (seconds : Nat) (status : Status), lineCount status.message ≤ 65535 →
        screenAfter top (history ++ [.message seconds status]) =
          .ofRows (top ++ logged history ++ status.rows (clock seconds)) := by
  intro always
  have shown := always [] twiceWarned (by decide +kernel) 1 (.warning "1 page(s)\nwarning: x")
    (by decide +kernel)
  exact absurd shown (by decide +kernel)

end LivePreview.Console
