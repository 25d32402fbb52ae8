import LivePreview.Proofs.Diagnostic.Report
import LivePreview.Proofs.Diagnostic.Rows
import Mathlib.Data.List.Flatten
import Mathlib.Data.List.InsertIdx

/-!
# Blocks of a report

A report is cut at its headers into blocks (`Outline`).  Blocks are read one by one, and each
adds at most its own diagnostic with its own hints (`Block.foldl_addLine`).  So every
diagnostic goes back to one block, and a block that adds none can be taken out of the text
(`diagnostics_of_blocks`).
-/

namespace LivePreview.ShortForm

open Text

/-! ## Cutting at headers -/

/-- A row that holds a header. -/
def IsOpening (row : List Char) : Prop :=
  ∃ line ∈ rowLines row, IsHeader line

instance : DecidablePred IsOpening := fun row =>
  inferInstanceAs (Decidable (∃ line ∈ rowLines row, IsHeader line))

/-- A header with all rows up to the next one. -/
structure Block where
  opening : List Char
  body : List (List Char)
  opens : IsOpening opening
  plain : ∀ row ∈ body, ¬ IsOpening row

/-- A text cut at its headers. -/
structure Outline where
  before : List (List Char)
  blocks : List Block
  plain : ∀ row ∈ before, ¬ IsOpening row

def Block.rows (b : Block) : List (List Char) :=
  b.opening :: b.body

namespace Outline

def rows (o : Outline) : List (List Char) :=
  o.before ++ o.blocks.flatMap Block.rows

def text (o : Outline) : String :=
  String.ofList o.rows.flatten

def ofRows : List (List Char) → Outline
  | [] => ⟨[], [], nofun⟩
  | row :: rs =>
    let o := ofRows rs
    if opens : IsOpening row then ⟨[], ⟨row, o.before, opens, o.plain⟩ :: o.blocks, nofun⟩
    else ⟨row :: o.before, o.blocks, List.forall_mem_cons.mpr ⟨opens, o.plain⟩⟩

def ofText (text : String) : Outline :=
  ofRows (Text.rows text.toList)

/-- The text without one of its blocks. -/
def without (o : Outline) (k : Nat) : Outline :=
  { o with blocks := o.blocks.eraseIdx k }

theorem ofRows_rows (rs : List (List Char)) : (ofRows rs).rows = rs := by
  induction rs with
  | nil => rfl
  | cons row rs ih =>
    unfold ofRows
    dsimp only
    split
    · exact congrArg (row :: ·) ih
    · exact congrArg (row :: ·) ih

theorem ofText_rows (text : String) : (ofText text).rows = Text.rows text.toList :=
  ofRows_rows _

/-- Put together again, the blocks are the text. -/
theorem ofText_text (text : String) : (ofText text).text = text := by
  rw [Outline.text, ofText_rows, flatten_rows, String.ofList_toList]

theorem areRows_ofText (text : String) : AreRows (ofText text).rows := by
  rw [ofText_rows]
  exact areRows_rows _

theorem without_rows_sublist (o : Outline) (k : Nat) : (o.without k).rows.Sublist o.rows :=
  List.Sublist.append_left ((List.eraseIdx_sublist ..).flatMap _) _

end Outline

/-! ## Reading blocks -/

namespace Block

variable {b : Block}

def lines (b : Block) : List (List Char) :=
  b.rows.flatMap rowLines

def header? (b : Block) : Option Header :=
  (rowLines b.opening).findSome? lineHeader?

/-- What the lines behind the header hint at. -/
def hints (b : Block) : List String :=
  (b.body.flatMap rowLines).filterMap hint?

/-- What a block says of a document: what its header says, with its own hints. -/
def diagnostic? (document : Path) (b : Block) : Option Diagnostic :=
  (b.header?.bind (·.draft? document)).map ({ · with hints := b.hints })

theorem opening_lines (single : '\n' ∉ b.opening.dropLast) :
    ∃ line h, rowLines b.opening = [line] ∧ lineHeader? line = some h ∧ b.header? = some h := by
  obtain ⟨line, mem, header⟩ := b.opens
  obtain ⟨h, reads⟩ := isHeader_iff.mp header
  rcases rowLines_cases single with none | ⟨only, one⟩
  · rw [none] at mem
    cases mem
  · rw [one, List.mem_singleton] at mem
    subst mem
    refine ⟨line, h, one, reads, ?_⟩
    rw [header?, one, List.findSome?_cons, reads]

theorem not_isHeader_of_body {line : List Char} (mem : line ∈ b.body.flatMap rowLines) :
    ¬ IsHeader line := by
  obtain ⟨row, inBody, inRow⟩ := List.mem_flatMap.mp mem
  exact fun header => b.plain row inBody ⟨line, inRow, header⟩

theorem foldl_addLine (document : Path) (report : Report)
    (single : '\n' ∉ b.opening.dropLast) :
    (b.lines.foldl (Report.addLine document) report).diagnostics =
        Diagnostic.extend report.diagnostics (b.diagnostic? document) ∧
      (b.lines.foldl (Report.addLine document) report).seen = report.seen + 1 := by
  obtain ⟨line, h, one, reads, header⟩ := opening_lines single
  rw [lines, rows, List.flatMap_cons, one, List.singleton_append, diagnostic?, header]
  exact Report.foldl_addLine document report reads fun line => not_isHeader_of_body

end Block

/-- What the blocks of a text say of a document, one by one. -/
def Outline.said (document : Path) (o : Outline) : List (Option Diagnostic) :=
  o.blocks.map (Block.diagnostic? document)

theorem Outline.read_text {o : Outline} (areRows : AreRows o.rows) (document : Path) :
    (read o.text document).diagnostics = Diagnostic.collect (o.said document) ∧
      (read o.text document).seen = o.blocks.length := by
  have single : ∀ b ∈ o.blocks, '\n' ∉ b.opening.dropLast := by
    intro b mem
    refine areRows.plain _ (List.mem_append_right _ (List.mem_flatMap.mpr ⟨b, mem, ?_⟩))
    exact List.mem_cons_self
  have idle : ∀ line ∈ o.before.flatMap rowLines, ¬ IsHeader line := by
    intro line mem
    obtain ⟨row, before, inRow⟩ := List.mem_flatMap.mp mem
    exact fun header => o.plain row before ⟨line, inRow, header⟩
  have blocks := Report.foldl_addLine_flatMap
    (fun b mem report => Block.foldl_addLine document report (single b mem)) {}
  rw [Nat.zero_add] at blocks
  rw [read, text, String.toList_ofList, lines_dropColours_flatten areRows, rows,
    List.flatMap_append, List.foldl_append, Report.foldl_addLine_idle rfl idle,
    List.flatMap_assoc]
  exact blocks

/-- Every diagnostic of a report is what a block of it says, with the hints of that block, in
    the order of the blocks.  What is kept is what no block before says; a block that is not
    kept can be taken out of the text, and is missed only among the headers that were seen. -/
theorem diagnostics_of_blocks (stderr : String) (document : Path) :
    (Outline.ofText stderr).text = stderr ∧
      (read stderr document).seen =
        (Text.lines (dropColours stderr.toList)).countP (IsHeader ·) ∧
      ∃ kept : List Nat, kept.Pairwise (· < ·) ∧
        (∀ k, k ∈ kept ↔ ∃ b ∈ (Outline.ofText stderr).blocks[k]?,
          Diagnostic.IsNew (((Outline.ofText stderr).said document).take k)
            (b.diagnostic? document)) ∧
        List.Forall₂ (fun k d => ∃ b ∈ (Outline.ofText stderr).blocks[k]?,
            b.diagnostic? document = some d ∧ d.hints = b.hints)
          kept (read stderr document).diagnostics ∧
        ∀ k, k < (Outline.ofText stderr).blocks.length → k ∉ kept →
          (read ((Outline.ofText stderr).without k).text document).diagnostics =
              (read stderr document).diagnostics ∧
            (read ((Outline.ofText stderr).without k).text document).seen + 1 =
              (read stderr document).seen := by
  have areRows := Outline.areRows_ofText stderr
  obtain ⟨diagnostics, seen⟩ := Outline.read_text areRows document
  rw [Outline.ofText_text] at diagnostics seen
  refine ⟨Outline.ofText_text stderr, ?_,
    Diagnostic.kept ((Outline.ofText stderr).said document), Diagnostic.kept_pairwise _,
    fun k => ?_, ?_, fun k inside notKept => ?_⟩
  · rw [read, Report.foldl_addLine_seen, Nat.zero_add]
  · rw [Diagnostic.mem_kept_iff, Outline.said, List.getElem?_map]
    simp
  · rw [diagnostics]
    refine (Diagnostic.forall₂_kept _).imp fun k d here => ?_
    rw [Outline.said, List.getElem?_map, Option.map_eq_some_iff] at here
    obtain ⟨b, here, own⟩ := here
    refine ⟨b, here, own, ?_⟩
    obtain ⟨draft, -, rfl⟩ := Option.map_eq_some_iff.mp own
    rfl
  · have rest := areRows.sublist (Outline.without_rows_sublist _ k)
    obtain ⟨others, fewer⟩ := Outline.read_text rest document
    have blocks : ((Outline.ofText stderr).without k).blocks =
      (Outline.ofText stderr).blocks.eraseIdx k := rfl
    rw [diagnostics, seen, others, fewer, Outline.said, blocks, ← List.eraseIdx_map]
    refine ⟨Diagnostic.collect_eraseIdx notKept, ?_⟩
    rw [List.length_eraseIdx_of_lt inside]
    omega

/-- Behind a warning of another file, a hint that is not to go to the warning before it. -/
def foreignReport : String :=
  "\x1b[33mmain.typ:1:1: warning: a\x1b[0m\n  hint: x\n" ++
    "other.typ:2:2: warning: b\n  hint: y\nmain.typ:3:3: error: c\n"

/-- A warning of another file can be taken out with its hint. -/
theorem foreign_warning_taken_out :
    1 < (Outline.ofText foreignReport).blocks.length ∧
      (¬ ∃ b ∈ (Outline.ofText foreignReport).blocks[1]?,
        Diagnostic.IsNew (((Outline.ofText foreignReport).said ⟨"main.typ"⟩).take 1)
          (b.diagnostic? ⟨"main.typ"⟩)) ∧
      (read ((Outline.ofText foreignReport).without 1).text ⟨"main.typ"⟩).diagnostics =
        (read foreignReport ⟨"main.typ"⟩).diagnostics ∧
      (read ((Outline.ofText foreignReport).without 1).text ⟨"main.typ"⟩).seen + 1 =
        (read foreignReport ⟨"main.typ"⟩).seen := by
  have inside : 1 < (Outline.ofText foreignReport).blocks.length := by decide +kernel
  have known : ¬ ∃ b ∈ (Outline.ofText foreignReport).blocks[1]?,
      Diagnostic.IsNew (((Outline.ofText foreignReport).said ⟨"main.typ"⟩).take 1)
        (b.diagnostic? ⟨"main.typ"⟩) := by
    decide +kernel
  obtain ⟨-, -, kept, -, kept_iff, -, leftOut⟩ :=
    diagnostics_of_blocks foreignReport ⟨"main.typ"⟩
  exact ⟨inside, known, leftOut 1 inside fun mem => known ((kept_iff 1).mp mem)⟩

end LivePreview.ShortForm
