import LivePreview.Failure

/-!
# Why a command fails

A `Fault` ends the program.  It has a message and at most one deeper cause, and
`Fault.report` is what is printed of them.
-/

namespace LivePreview.Application

/-- Why a command cannot be carried out. -/
inductive Fault where
  /-- A path given on the command line leads nowhere. -/
  | inaccessible (path : Path) (cause : SystemError)
  | noDocument (path : Path)
  /-- The document has no directory. -/
  | noDirectory
  | outsideRoot (main root : Path)
  /-- There is no compiler program of this name. -/
  | noCompiler (name : String)
  | noConfig (path : Path)
  | unreadableConfig (path : Path) (cause : SystemError)
  /-- The configuration is not written as it should be. -/
  | malformedConfig
  /-- The configuration makes no sense, for the reasons given. -/
  | invalidConfig (problems : List String)
  /-- Something went wrong while a document was opened or exported. -/
  | failure (f : Failure)
  /-- The document was not compiled when it was opened. -/
  | notCompiled
  | previewFailed (kind : FailureKind)
  | nothingExported (kind : FailureKind)
  /-- Pages were chosen for an export that has all of them. -/
  | pagesNotAllowed
  deriving DecidableEq, Repr

namespace Fault

def message : Fault → String
  | .inaccessible path _ => s!"cannot access '{path.text}'"
  | .noDocument path => s!"'{path.text}' is not a Typst document"
  | .noDirectory => "document has no parent directory"
  | .outsideRoot main root => s!"'{main.text}' is outside the workspace root '{root.text}'"
  | .noCompiler name => s!"typst compiler `{name}` not found"
  | .noConfig path => s!"Config file '{path.text}' not found"
  | .unreadableConfig path _ => s!"IO error when reading `{path.text}`"
  | .malformedConfig => "Config file parsing error"
  | .invalidConfig problems =>
    "Config validation error: " ++ String.intercalate "; " problems
  | .failure f => f.message
  | .notCompiled => "main document was not compiled"
  | .previewFailed kind => s!"preview failed ({kind.name})"
  | .nothingExported kind => s!"nothing exported, the document does not compile ({kind.name})"
  | .pagesNotAllowed => "--pages applies to svg and png exports"

def cause : Fault → Option String
  | .inaccessible _ e => some e.message
  | .noCompiler _ => some "cannot find binary path"
  | .unreadableConfig _ e => some e.message
  | .failure (.io _ e) => some e.message
  | _ => none

/-- What is printed of a fault that ends the program. -/
def report (fault : Fault) : String :=
  let causes :=
    match fault.cause with
    | some cause => s!"\n\nCaused by:\n    {cause}"
    | none => ""
  s!"Error: {fault.message}{causes}\n"

end Fault

end LivePreview.Application
