import LivePreview.Application.Fault
import LivePreview.Config.Locate
import LivePreview.Config.Reader
import LivePreview.Console.Line
import LivePreview.Document.Kind

/-!
# Before a document is opened

What a command does first: it loads the configuration, makes sure of the document,
and looks for the compiler program.  Each of these may fail, with nothing changed.
-/

namespace LivePreview.Application

open Console (LogLine)
open Host (Environment Program)

abbrev Attempt : Type → Type :=
  ExceptT Fault Program

def say (verbose : Bool) (lines : List LogLine) : Program Unit :=
  match Console.logCommands verbose lines with
  | [] => pure ()
  | commands => Program.request (.print (Console.render commands))

/-- The answer, or a fault in place of an error of the system. -/
def orFault {α : Type} (fault : SystemError → Fault) (reply : Except SystemError α) :
    Attempt α :=
  match reply with
  | .ok a => pure a
  | .error e => throw (fault e)

/-! ## The configuration -/

/-- A configuration and the file it comes from. -/
structure Loaded where
  config : Config
  file : Option Path
  deriving DecidableEq, Repr

/-- Tells which entries of the configuration are ignored. -/
def warnIgnored (verbose : Bool) (file : Path) (ignored : List String) : Program Unit :=
  match ignored with
  | [] => pure ()
  | ignored => do
    let name := file.fileName?.getD file.text
    say verbose [.log "warning" s!"unknown fields in {name}, ignoring:"]
    Program.request (.complain (String.join (ignored.map fun field => s!"- {field}\n")))

def readConfig (verbose : Bool) (file : Path) : Attempt Config := do
  let text ← orFault (.unreadableConfig file) (← Program.readText file)
  match Config.read? text with
  | none => throw .malformedConfig
  | some found =>
    warnIgnored verbose file found.ignored
    say verbose [.debug "config" s!"loaded {file.text}"]
    pure found.settings

/-- The configuration of a run.  Only a file with the usual name may be missing. -/
def loadConfig (env : Environment) (line : CommandLine.Invocation) : Attempt Loaded := do
  let name : Path := ⟨Config.expandTilde env.home line.config.text⟩
  let loaded : Loaded ←
    match ← Config.search env.current name with
    | some file => do pure ⟨← readConfig line.verbose file, some file⟩
    | none =>
      if name.same CommandLine.defaultConfig then pure ⟨.standard, none⟩
      else throw (.noConfig line.config)
  let config := loaded.config.override line
  match config.problems with
  | [] => pure { loaded with config }
  | problems => throw (.invalidConfig problems)

/-! ## The document -/

/-- A document in its workspace, both absolute. -/
structure Document where
  root : Path
  main : Path
  deriving DecidableEq, Repr

namespace Document

/-- A path as it is shown: without the root, if it lies below it. -/
def shown (d : Document) (path : Path) : Path :=
  (path.below? d.root).getD path

/-- Finds the document that a command line names.  It has to lie in its workspace,
    which is its own directory unless another one is named. -/
def find (options : CommandLine.DocumentOptions) : Attempt Document := do
  let main ←
    orFault (.inaccessible options.file) (← Program.request (.canonical options.file))
  if !(DocumentKind.ofPath main).isCompilable then throw (.noDocument options.file)
  let root ←
    match options.root with
    | some root => do orFault (.inaccessible root) (← Program.request (.canonical root))
    | none =>
      match main.parent? with
      | some dir => pure dir
      | none => throw .noDirectory
  if !main.startsWith root then throw (.outsideRoot main root)
  pure ⟨root, main⟩

end Document

/-! ## The compiler program -/

/-- A path from a directory on, without the dots and repeated slashes it has. -/
def anchored (dir path : Path) : Path :=
  path.components.foldl (fun dir component =>
    match component with
    | .root => dir
    | .here => dir
    | .up => dir.child ".."
    | .name chars => dir.child (String.ofList chars)) dir

/-- The files that the name of a program may stand for.  A name with several
    components is a path; a single one is looked for where programs are. -/
def programCandidates (env : Environment) (name : Path) : List Path :=
  if name.components.length ≤ 1 then env.programs.map fun dir => dir.join name
  else if name.isAbsolute then [name]
  else [anchored env.current name]

def findProgram (env : Environment) (verbose : Bool) (name : String) : Attempt Path := do
  let candidates := programCandidates env ⟨Config.expandTilde env.home name⟩
  match ← Program.find (fun file => Program.request (.isProgram file)) candidates with
  | none => throw (.noCompiler name)
  | some program =>
    say verbose [.debug "backend" s!"using {program.text}"]
    pure program

end LivePreview.Application
