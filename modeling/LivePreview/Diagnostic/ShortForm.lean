import LivePreview.Diagnostic.Basic
import LivePreview.Path.Basic
import LivePreview.Text.Digits

/-!
# The short form of diagnostics

The compiler reports on its error stream, one diagnostic a line, each followed
by its hints:

```text
main.typ:3:5: error: unknown variable: titel
  hint: did you mean `title`?
chapters/intro.typ:1:1: warning: unused import
```

`read` collects the diagnostics that concern one document.  Errors of other
files are kept too, at the start of the document and with their place in the
message; warnings of other files are dropped, and so is what was reported before.
`write` prints diagnostics in this form.
-/

namespace LivePreview.ShortForm

open Text

/-! ## Terminal colours -/

/-- What follows a colour command whose opening bracket was read, if it is one. -/
def afterColour? : List Char → Option (List Char)
  | 'm' :: rest => some rest
  | c :: rest => if c.isDigit || c = ';' then afterColour? rest else none
  | [] => none

theorem length_lt_of_afterColour? {cs rest : List Char} (h : afterColour? cs = some rest) :
    rest.length < cs.length := by
  fun_induction afterColour? cs with
  | case1 => simp_all
  | case2 c tail _ _ ih => have := ih h; simp; omega
  | case3 => simp at h
  | case4 => simp at h

def dropColours : List Char → List Char
  | [] => []
  | '\x1b' :: '[' :: cs =>
    match h : afterColour? cs with
    | some rest =>
      have := length_lt_of_afterColour? h
      dropColours rest
    | none => '\x1b' :: dropColours ('[' :: cs)
  | c :: cs => c :: dropColours cs
termination_by cs => cs.length
decreasing_by all_goals simp_all <;> omega

/-! ## Lines -/

/-- The parts of the line that opens a diagnostic, as they are written. -/
structure Header where
  file : List Char
  line : List Char
  column : List Char
  severity : Severity
  message : List Char
  deriving DecidableEq, Repr

def severity? (cs : List Char) : Option (Severity × List Char) :=
  match dropBeginning? "error: ".toList cs with
  | some message => some (.error, message)
  | none => (dropBeginning? "warning: ".toList cs).map (Severity.warning, ·)

/-- A colon, then at least one digit: the digits and what follows. -/
def number? : List Char → Option (List Char × List Char)
  | ':' :: cs =>
    match cs.span isDecimalDigit with
    | ([], _) => none
    | parts => some parts
  | _ => none

/-- What follows the file name of a header: two numbers, severity and message. -/
def position? (cs : List Char) : Option Header := do
  let (line, cs) ← number? cs
  let (column, cs) ← number? cs
  let cs ← dropBeginning? ": ".toList cs
  let (severity, message) ← severity? cs
  pure ⟨[], line, column, severity, message⟩

/-- The header a line holds.  The file name is as short as possible, but not
    empty. -/
def header? : List Char → Option Header
  | [] => none
  | c :: cs =>
    match position? cs with
    | some header => some { header with file := [c] }
    | none => (header? cs).map fun header => { header with file := c :: header.file }

/-- What one line says. -/
inductive Line where
  | hint (text : List Char)
  | header (header : Header)
  | other
  deriving DecidableEq, Repr

/-- Reads one line.  A hint may be indented; a header may not. -/
def readLine (cs : List Char) : Line :=
  match dropBeginning? "hint: ".toList (trim cs) with
  | some text => .hint text
  | none =>
    match header? cs with
    | some header => .header header
    | none => .other

/-! ## Collecting -/

/-- Whether a reported file is the document: the same path, or an absolute path
    that ends in it. -/
def concerns (document : Path) (reported : List Char) : Bool :=
  let path : Path := ⟨String.ofList (dropDots reported)⟩
  path.same document || (path.isAbsolute && path.endsWith document)
where
  /-- A reported path without the leading dots of a relative path. -/
  dropDots : List Char → List Char
    | '.' :: '/' :: rest => dropDots rest
    | rest => rest

/-- What was read so far. -/
structure Report where
  /-- The diagnostics kept, in order. -/
  diagnostics : List Diagnostic := []
  /-- The number of headers, kept or not. -/
  seen : Nat := 0
  /-- Whether hints belong to the last diagnostic kept. -/
  takesHints : Bool := false
  /-- File and message of the warnings dropped because of their file. -/
  foreign : List (String × String) := []
  deriving DecidableEq, Repr, Inhabited

namespace Report

def addHint (hint : String) : List Diagnostic → List Diagnostic
  | [] => []
  | [d] => [{ d with hints := d.hints ++ [hint] }]
  | d :: ds => d :: addHint hint ds

/-- Whether a diagnostic at the same position with the same message was kept. -/
def has (report : Report) (d : Diagnostic) : Bool :=
  report.diagnostics.any fun old =>
    old.location.line == d.location.line && old.location.column == d.location.column &&
      old.message == d.message

/-- The report with a diagnostic, unless it was kept before. -/
def keep (report : Report) (d : Diagnostic) : Report :=
  if report.has d then { report with takesHints := false }
  else { report with diagnostics := report.diagnostics ++ [d], takesHints := true }

def addHeader (document : Path) (report : Report) (h : Header) : Report :=
  let report := { report with seen := report.seen + 1 }
  match word? h.line, word? h.column with
  | some line, some column =>
    let message := String.ofList h.message
    if concerns document h.file then
      report.keep ⟨.point line column, h.severity, message, []⟩
    else
      let file := String.ofList h.file
      match h.severity with
      | .error =>
        report.keep ⟨.point 1 1, .error, s!"in {file}:{line}:{column}: {message}", []⟩
      | .warning =>
        { report with takesHints := false, foreign := report.foreign ++ [(file, message)] }
  | _, _ => { report with takesHints := false }

def addLine (document : Path) (report : Report) (cs : List Char) : Report :=
  match readLine cs with
  | .hint text =>
    if report.takesHints then
      { report with diagnostics := addHint (String.ofList text) report.diagnostics }
    else report
  | .header header => report.addHeader document header
  | .other => report

end Report

/-- The diagnostics of a compiler run that concern `document`. -/
def read (stderr : String) (document : Path) : Report :=
  (lines (dropColours stderr.toList)).foldl (Report.addLine document) {}

/-! ## Printing -/

def writeOne (document : Path) (d : Diagnostic) : String :=
  let header :=
    s!"{document.text}:{d.location.line}:{d.location.column}: {d.severity.label}: {d.message}\n"
  header ++ String.join (d.hints.map fun hint => s!"  hint: {hint}\n")

def write (document : Path) (ds : List Diagnostic) : String :=
  String.join (ds.map (writeOne document))

end LivePreview.ShortForm
