import LivePreview.Diagnostic.Basic
import LivePreview.Path.Basic

/-!
# Failures

Everything that can go wrong while the preview is kept up to date is a `Failure`.
None of them is fatal: a failure ends the current cycle, becomes one notification
and leaves the last good preview on screen.
-/

namespace LivePreview

/-- What the compiler backend can be asked to do. -/
inductive Operation where
  | persistSource
  | compile
  | pageCount
  | renderAllPages
  | renderPage
  | resolveCursorPosition
  | resolveClick
  | openWorkspace
  | setMainDocument
  | createFile
  | export
  deriving DecidableEq, Repr, Inhabited

namespace Operation

def all : List Operation :=
  [.persistSource, .compile, .pageCount, .renderAllPages, .renderPage,
    .resolveCursorPosition, .resolveClick, .openWorkspace, .setMainDocument, .createFile,
    .export]

def name : Operation → String
  | .persistSource => "persist_source"
  | .compile => "compile"
  | .pageCount => "page_count"
  | .renderAllPages => "render_all_pages"
  | .renderPage => "render_page"
  | .resolveCursorPosition => "resolve_cursor_position"
  | .resolveClick => "resolve_click"
  | .openWorkspace => "open_workspace"
  | .setMainDocument => "set_main_document"
  | .createFile => "create_file"
  | .export => "export"

def ofName? (name : String) : Option Operation :=
  all.find? (·.name == name)

end Operation

/-- Why the system refused to read, write or start something. -/
inductive SystemError where
  | notFound
  | permissionDenied
  | notDirectory
  | isDirectory
  | notEmpty
  | exists
  /-- The bytes read are no text. -/
  | invalidText
  /-- A refusal that was arranged in advance. -/
  | scripted
  deriving DecidableEq, Repr, Inhabited

def SystemError.message : SystemError → String
  | .notFound => "No such file or directory (os error 2)"
  | .permissionDenied => "Permission denied (os error 13)"
  | .exists => "File exists (os error 17)"
  | .notDirectory => "Not a directory (os error 20)"
  | .isDirectory => "Is a directory (os error 21)"
  | .notEmpty => "Directory not empty (os error 39)"
  | .invalidText => "stream did not contain valid UTF-8"
  | .scripted => "scripted failure"

/-- The classes of failures. -/
inductive FailureKind where
  | transport
  | timeout
  | compile
  | mappingNotFound
  | io
  | decode
  deriving DecidableEq, Repr, Inhabited

def FailureKind.name : FailureKind → String
  | .transport => "Transport"
  | .timeout => "Timeout"
  | .compile => "Compile"
  | .mappingNotFound => "MappingNotFound"
  | .io => "Io"
  | .decode => "Decode"

/-- A failed call or file access. -/
inductive Failure where
  /-- The backend could not complete the call. -/
  | transport (operation : Operation) (message : String)
  /-- The backend did not answer within so many milliseconds. -/
  | timeout (operation : Operation) (after : Nat)
  /-- The source is invalid. -/
  | compile (diagnostics : List Diagnostic)
  /-- The cursor has no place in the preview. -/
  | mappingNotFound
  | io (path : Path) (cause : SystemError)
  /-- A page is no image. -/
  | decode (index : Nat) (message : String)
  deriving DecidableEq, Repr, Inhabited

namespace Failure

def kind : Failure → FailureKind
  | .transport .. => .transport
  | .timeout .. => .timeout
  | .compile _ => .compile
  | .mappingNotFound => .mappingNotFound
  | .io .. => .io
  | .decode .. => .decode

/-- Whether the backend is out of reach; a timeout counts. -/
def isTransport (f : Failure) : Bool :=
  f.kind == .transport || f.kind == .timeout

def message : Failure → String
  | .transport operation message => s!"backend `{operation.name}` failed: {message}"
  | .timeout operation after => s!"backend `{operation.name}` timed out after {after}ms"
  | .compile diagnostics => s!"compilation failed: {Diagnostic.summary diagnostics}"
  | .mappingNotFound => "no preview position for this location"
  | .io path _ => s!"IO error on `{path.text}`"
  | .decode index message => s!"page {index} is not a valid image: {message}"

end Failure

end LivePreview
