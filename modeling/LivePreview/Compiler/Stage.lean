import LivePreview.Compiler.Page
import LivePreview.Compiler.State
import LivePreview.Preview.Cycle

/-!
# Calls to the compiler

A call to the compiler runs in steps, with one request to the system between each
two.  `Stage operation` says where a call of that operation waits, `Stage.request`
what for, and `Stage.resume` is the step after the answer; `Compiler.call` is the
first step.  Steps of several calls may be interleaved.

`Stage.rank` bounds the number of steps that are left.
-/

namespace LivePreview.Compiler

open Preview (Progress)

/-- A compile under way. -/
structure Draft where
  target : Target
  generation : Nat
  /-- The directory of its pages. -/
  dir : Path
  deriving DecidableEq, Repr

def drawArguments (c : Compiler) (draft : Draft) : List String :=
  arguments draft.target ["--format", "png", "--ppi", toString c.ppi]
    (draft.dir.child pagePattern)

/-- Where a call waits. -/
inductive Stage : Operation → Type where
  | persisting (path : Path) (text : String) : Stage .persistSource
  /-- For the directory of the pages. -/
  | preparing (draft : Draft) : Stage .compile
  | compiling (draft : Draft) : Stage .compile
  /-- For the names of the page files. -/
  | collecting (draft : Draft) (diagnostics : List Diagnostic) : Stage .compile
  /-- For a directory to be removed, after which the call ends with a last word to the
      log. -/
  | discarding (dir : Path) (lines : List Console.LogLine)
      (reply : Except Failure (List Diagnostic)) : Stage .compile
  /-- For the next of the pages; those read before come last first. -/
  | readingAll (read : List Page) (file : Path) (rest : List Path) : Stage .renderAllPages
  | reading (index : Nat) (file : Path) : Stage .renderPage
  | openingRoot (path : Path) : Stage .openWorkspace
  /-- For a directory to be removed, before the workspace is taken over. -/
  | leavingRoot (path : Path) (dir : Path) (rest : List Path) : Stage .openWorkspace
  | openingMain (path : Path) : Stage .setMainDocument
  | leavingMain (path : Path) (dir : Path) (rest : List Path) : Stage .setMainDocument
  /-- For the directory of a new file. -/
  | makingRoom (path : Path) (text : String) (dir : Path) : Stage .createFile
  | creating (path : Path) (text : String) : Stage .createFile
  /-- For the directory of an export. -/
  | clearingWay (target : Target) (format : ExportFormat) (output dir : Path) : Stage .export
  | exporting (target : Target) (format : ExportFormat) (output : Path) : Stage .export

/-- A step of a call: the compiler after it, and where the call stands. -/
abbrev Step (operation : Operation) : Type :=
  Compiler × Progress (Stage operation) (Except Failure operation.Answer)

@[reducible] def Stage.request (c : Compiler) {operation : Operation} :
    Stage operation → Host.Request
  | .persisting path text => .write path text.toUTF8
  | .preparing draft => .makeDirectories draft.dir
  | .compiling draft => .run c.program (c.drawArguments draft)
  | .collecting draft _ => .list draft.dir
  | .discarding dir _ _ => .removeTree dir
  | .readingAll _ file _ => .read file
  | .reading _ file => .read file
  | .openingRoot path => .inspect path
  | .leavingRoot _ dir _ => .removeTree dir
  | .openingMain path => .inspect path
  | .leavingMain _ dir _ => .removeTree dir
  | .makingRoom _ _ dir => .makeDirectories dir
  | .creating path text => .write path text.toUTF8
  | .clearingWay _ _ _ dir => .makeDirectories dir
  | .exporting target format output =>
    .run c.program (arguments target format.compileArguments output)

def Stage.rank {operation : Operation} : Stage operation → Nat
  | .persisting _ _ => 1
  | .preparing _ => 4
  | .compiling _ => 3
  | .collecting _ _ => 2
  | .discarding _ _ _ => 1
  | .readingAll _ _ rest => rest.length + 1
  | .reading _ _ => 1
  | .openingRoot _ => 3
  | .leavingRoot _ _ rest => rest.length + 1
  | .openingMain _ => 3
  | .leavingMain _ _ rest => rest.length + 1
  | .makingRoom _ _ _ => 2
  | .creating _ _ => 1
  | .clearingWay _ _ _ _ => 2
  | .exporting _ _ _ => 1

/-! ## Compiling -/

def startCompile (c : Compiler) : Step .compile :=
  match c.target with
  | .error f => (c, .ended (.error f))
  | .ok target =>
    let (generation, dir, c) := c.nextGeneration
    (c, .waits (.preparing ⟨target, generation, dir⟩))

def afterPrepare (c : Compiler) (draft : Draft) (reply : Except SystemError Unit) :
    Step .compile :=
  match reply with
  | .error e => (c, .ended (.error (.io draft.dir e)))
  | .ok _ => (c, .waits (.compiling draft))

/-- After the run.  The directory of a failed compile is removed. -/
def afterCompile (c : Compiler) (draft : Draft) (reply : Except SystemError Host.Run) :
    Step .compile :=
  let lines := skippedLines draft.target reply
  match checkRun .compile draft.target reply with
  | .error f => (c, .waits (.discarding draft.dir lines (.error f)))
  | .ok run => (c.say lines, .waits (.collecting draft (report draft.target run).diagnostics))

/-- After the page files were listed: the pages are published. -/
def afterCollect (c : Compiler) (draft : Draft) (diagnostics : List Diagnostic)
    (reply : Except SystemError (List String)) : Step .compile :=
  match reply with
  | .error e => (c, .waits (.discarding draft.dir [] (.error (.io draft.dir e))))
  | .ok names =>
    let pages := pageFiles draft.dir names
    let c := c.debug
      s!"compile #{draft.generation} of {draft.target.main.text}: {pages.length} page(s)"
    match c.publish draft.generation draft.dir pages with
    | (none, c) => (c, .ended (.ok diagnostics))
    | (some dir, c) => (c, .waits (.discarding dir [] (.ok diagnostics)))

/-! ## Reading pages -/

def readNext (c : Compiler) (read : List Page) : List Path → Step .renderAllPages
  | [] => (c, .ended (.ok read.reverse))
  | file :: rest => (c, .waits (.readingAll read file rest))

/-- After the file of one of the pages was read. -/
def afterReadNext (c : Compiler) (read : List Page) (file : Path) (rest : List Path)
    (reply : Except SystemError ByteArray) : Step .renderAllPages :=
  match reply with
  | .error e => (c, .ended (.error (.io file e)))
  | .ok data => c.readNext (readPage read.length data :: read) rest

def afterRead (c : Compiler) (index : Nat) (file : Path)
    (reply : Except SystemError ByteArray) : Step .renderPage :=
  match reply with
  | .error e => (c, .ended (.error (.io file e)))
  | .ok data => (c, .ended (.ok (readPage index data)))

/-! ## Selections -/

/-- Goes on leaving a workspace, or takes over the new one. -/
def leaveRoot (c : Compiler) (path : Path) : List Path → Step .openWorkspace
  | [] => ({ c with root := some path, main := none }, .ended (.ok ()))
  | dir :: rest => (c, .waits (.leavingRoot path dir rest))

/-- After a workspace was looked at.  The pages served so far are forgotten. -/
def afterOpenRoot (c : Compiler) (path : Path) (reply : Except SystemError Host.EntryKind) :
    Step .openWorkspace :=
  match reply with
  | .error e => (c, .ended (.error (.io path e)))
  | .ok .file =>
    (c, .ended (.error (.transport .openWorkspace s!"`{path.text}` is not a directory")))
  | .ok .directory =>
    let (stale, c) := c.forget
    c.leaveRoot path stale

/-- Goes on leaving a main document, or takes over the new one. -/
def leaveMain (c : Compiler) (path : Path) : List Path → Step .setMainDocument
  | [] => ({ c with main := some path }, .ended (.ok ()))
  | dir :: rest => (c, .waits (.leavingMain path dir rest))

/-- After a main document was looked at.  The pages served so far are forgotten. -/
def afterOpenMain (c : Compiler) (path : Path) (reply : Except SystemError Host.EntryKind) :
    Step .setMainDocument :=
  match reply with
  | .error e => (c, .ended (.error (.io path e)))
  | .ok _ =>
    let (stale, c) := c.forget
    c.leaveMain path stale

/-! ## Files -/

def written (path : Path) (reply : Except SystemError Unit) : Except Failure Unit :=
  reply.mapError (.io path)

def startCreate (c : Compiler) (path : Path) (text : String) : Step .createFile :=
  match path.parent? with
  | some dir => (c, .waits (.makingRoom path text dir))
  | none => (c, .waits (.creating path text))

def afterMakeRoom (c : Compiler) (path : Path) (text : String) (dir : Path)
    (reply : Except SystemError Unit) : Step .createFile :=
  match reply with
  | .error e => (c, .ended (.error (.io dir e)))
  | .ok _ => (c, .waits (.creating path text))

/-! ## Exporting -/

def startExport (c : Compiler) (format : ExportFormat) (requested : Path) : Step .export :=
  match c.target with
  | .error f => (c, .ended (.error f))
  | .ok target =>
    let output := format.outputPath requested
    match output.parent?.filter fun dir => !dir.text.isEmpty with
    | some dir => (c, .waits (.clearingWay target format output dir))
    | none => (c, .waits (.exporting target format output))

def afterClearWay (c : Compiler) (target : Target) (format : ExportFormat) (output dir : Path)
    (reply : Except SystemError Unit) : Step .export :=
  match reply with
  | .error e => (c, .ended (.error (.io dir e)))
  | .ok _ => (c, .waits (.exporting target format output))

def afterExport (c : Compiler) (target : Target) (output : Path)
    (reply : Except SystemError Host.Run) : Step .export :=
  match checkRun .export target reply with
  | .error f => (c.say (skippedLines target reply), .ended (.error f))
  | .ok _ =>
    (c.debug s!"exported {target.main.text} to {output.text}", .ended (.ok output))

/-! ## Steps -/

def call (c : Compiler) : (call : Call) → Step call.operation
  | .persistSource path text => (c, .waits (.persisting path text))
  | .compile => c.startCompile
  | .pageCount => (c, .ended (.ok c.pages.length))
  | .renderAllPages => c.readNext [] c.pages
  | .renderPage index =>
    match c.pageFile index with
    | .error f => (c, .ended (.error f))
    | .ok file => (c, .waits (.reading index file))
  | .resolveCursorPosition _ _ _ => (c, .ended (.ok none))
  | .resolveClick _ _ _ _ => (c, .ended (.ok .nowhere))
  | .openWorkspace path => (c, .waits (.openingRoot path))
  | .setMainDocument path => (c, .waits (.openingMain path))
  | .createFile path text => c.startCreate path text
  | .export format output => c.startExport format output

/-- The step after the answer to what a stage waits for. -/
def resume {operation : Operation} (c : Compiler) (stage : Stage operation)
    (reply : (stage.request c).Reply) : Step operation :=
  match stage, reply with
  | .persisting path _, reply => (c, .ended (written path reply))
  | .preparing draft, reply => c.afterPrepare draft reply
  | .compiling draft, reply => c.afterCompile draft reply
  | .collecting draft diagnostics, reply => c.afterCollect draft diagnostics reply
  | .discarding dir lines result, reply => ((c.noteRemoval dir reply).say lines, .ended result)
  | .readingAll read file rest, reply => c.afterReadNext read file rest reply
  | .reading index file, reply => c.afterRead index file reply
  | .openingRoot path, reply => c.afterOpenRoot path reply
  | .leavingRoot path dir rest, reply => (c.noteRemoval dir reply).leaveRoot path rest
  | .openingMain path, reply => c.afterOpenMain path reply
  | .leavingMain path dir rest, reply => (c.noteRemoval dir reply).leaveMain path rest
  | .makingRoom path text dir, reply => c.afterMakeRoom path text dir reply
  | .creating path _, reply => (c, .ended (written path reply))
  | .clearingWay target format output dir, reply =>
    c.afterClearWay target format output dir reply
  | .exporting target _ output, reply => c.afterExport target output reply

end LivePreview.Compiler
