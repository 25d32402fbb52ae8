import LivePreview.Backend.Call
import LivePreview.Console.Line
import LivePreview.Diagnostic.ShortForm
import LivePreview.Host.Request
import LivePreview.Text.Utf8

/-!
# The command-line compiler

A `Compiler` is a backend that runs a compiler program.  Every compile draws its
pages into a directory of its own, numbered by its *generation*.  Only the latest
compile that succeeded is *published*: its pages are the ones that are served.  The
directory published before is *retired*, and removed when the next one is
published, so that pages being read are still there.

`publish` and `forget` are the only steps that change which pages are served.
-/

namespace LivePreview

/-- A compiler program, what it compiles, and the pages it serves. -/
structure Compiler where
  /-- The program. -/
  program : Path
  /-- The resolution of the pages, in pixels per inch. -/
  ppi : Nat
  /-- Where the directories of the generations are. -/
  outDir : Path
  root : Option Path
  main : Option Path
  /-- The files of the published pages, in order. -/
  pages : List Path
  /-- The directory of the published pages. -/
  published : Option Path
  /-- The directory published before. -/
  retired : Option Path
  /-- The number of the latest compile or selection. -/
  generation : Nat
  /-- Lines for the log, oldest first. -/
  lines : List Console.LogLine
  deriving Repr

namespace Compiler

def start (program : Path) (ppi : Nat) (outDir : Path) : Compiler where
  program
  ppi
  outDir
  root := none
  main := none
  pages := []
  published := none
  retired := none
  generation := 0
  lines := []

def say (c : Compiler) (lines : List Console.LogLine) : Compiler :=
  { c with lines := c.lines ++ lines }

def debug (c : Compiler) (message : String) : Compiler :=
  c.say [.debug "backend" message]

/-- The lines logged so far, and the compiler without them. -/
def takeLines (c : Compiler) : List Console.LogLine × Compiler :=
  (c.lines, { c with lines := [] })

/-- The root and the main document of a compile. -/
structure Target where
  root : Path
  main : Path
  deriving DecidableEq, Repr, Inhabited

/-- What would be compiled now.  Without a workspace the root is the directory of the
    main document. -/
def target (c : Compiler) : Except Failure Target :=
  match c.main with
  | none => .error (.transport .compile "no main document selected")
  | some main => .ok ⟨c.root.getD (main.parent?.getD ⟨""⟩), main⟩

def Target.shownMain (t : Target) : Path :=
  (t.main.below? t.root).getD t.main

def pageFile (c : Compiler) (index : Nat) : Except Failure Path :=
  match c.pages[index]? with
  | some file => .ok file
  | none =>
    .error (.transport .renderPage s!"page {index} out of range ({c.pages.length} pages)")

/-! ## Generations -/

def nextGeneration (c : Compiler) : Nat × Path × Compiler :=
  let generation := c.generation + 1
  (generation, c.outDir.child s!"gen-{generation}", { c with generation })

/-- Serves the pages of a generation if it is still the latest.  Answers the directory
    that is no longer needed: the one of an overtaken generation, or the one that
    was retired. -/
def publish (c : Compiler) (generation : Nat) (dir : Path) (pages : List Path) :
    Option Path × Compiler :=
  if c.generation ≠ generation then
    (some dir, c.debug s!"compile #{generation} overtaken, discarding")
  else (c.retired, { c with pages, published := some dir, retired := c.published })

/-- Makes compiles under way stale and stops serving pages.  Answers the directories
    that are no longer needed. -/
def forget (c : Compiler) : List Path × Compiler :=
  (c.published.toList ++ c.retired.toList,
    { c with generation := c.generation + 1, pages := [], published := none, retired := none })

/-- Takes note of a directory that could not be removed. -/
def noteRemoval (c : Compiler) (dir : Path) (reply : Except SystemError Unit) : Compiler :=
  match reply with
  | .ok _ => c
  | .error e => c.debug s!"failed to remove {dir.text}: {e.message}"

/-! ## Runs of the program -/

/-- The pattern of page files, with a placeholder for the page number. -/
def pagePattern : String :=
  "page-\x7b0p\x7d.png"

def arguments (t : Target) (format : List String) (output : Path) : List String :=
  ["compile", "--root", t.root.text, "--diagnostic-format", "short"] ++ format ++
    [t.main.text, output.text]

def report (t : Target) (run : Host.Run) : ShortForm.Report :=
  ShortForm.read (Text.decodeLossy run.complaints) t.shownMain

/-- The lines about warnings that concern other files, and are not shown for that. -/
def skippedLines (t : Target) (reply : Except SystemError Host.Run) :
    List Console.LogLine :=
  match reply with
  | .error _ => []
  | .ok run =>
    (report t run).foreign.map fun (file, message) =>
      .debug "backend" s!"skip diagnostic in {file}: {message}"

/-- Why a run failed: the diagnostics, if it reported anything, or else its first
    words. -/
def failureOf (operation : Operation) (t : Target) (run : Host.Run) : Failure :=
  let reported := report t run
  if reported.seen = 0 then
    let spoken := (Text.linesOf (Text.decodeLossy run.complaints)).find? fun line =>
      !(Text.trimmed line).isEmpty
    .transport operation (spoken.getD s!"typst exited with {run.status.describe}")
  else .compile reported.diagnostics

def checkRun (operation : Operation) (t : Target) (reply : Except SystemError Host.Run) :
    Except Failure Host.Run :=
  match reply with
  | .error e => .error (.transport operation e.message)
  | .ok run => if run.status.isSuccess then .ok run else .error (failureOf operation t run)

end Compiler

end LivePreview
