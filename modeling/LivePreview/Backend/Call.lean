import LivePreview.Export.Format
import LivePreview.Failure
import LivePreview.Page.Image
import LivePreview.Position

/-!
# Calls to the backend

The backend owns the layout: it compiles, counts and draws pages, and maps places
between source and preview.  The engine talks to it in calls.  Each operation has
its own type of answer, and every call may fail.
-/

namespace LivePreview

abbrev Operation.Answer : Operation → Type
  | .persistSource => Unit
  | .compile => List Diagnostic
  | .pageCount => Nat
  | .renderAllPages => List Page
  | .renderPage => Page
  | .resolveCursorPosition => Option Position
  | .resolveClick => Jump
  | .openWorkspace => Unit
  | .setMainDocument => Unit
  | .createFile => Unit
  | .export => Path

/-- A call with its arguments. -/
inductive Call where
  /-- Write a source through to disk before it is compiled. -/
  | persistSource (path : Path) (text : String)
  /-- Compile the main document as it was persisted last. -/
  | compile
  | pageCount
  /-- Every page, in order. -/
  | renderAllPages
  | renderPage (index : Nat)
  /-- The place of the cursor in the preview, if it has one. -/
  | resolveCursorPosition (offset : Nat) (text : String) (path : Path)
  | resolveClick (text : String) (page : Nat) (x y : Float)
  | openWorkspace (path : Path)
  | setMainDocument (path : Path)
  | createFile (path : Path) (text : String)
  /-- Export the persisted main document; answers the path that was written. -/
  | export (format : ExportFormat) (output : Path)
  deriving DecidableEq, Repr

namespace Call

@[reducible] def operation : Call → Operation
  | .persistSource .. => .persistSource
  | .compile => .compile
  | .pageCount => .pageCount
  | .renderAllPages => .renderAllPages
  | .renderPage _ => .renderPage
  | .resolveCursorPosition .. => .resolveCursorPosition
  | .resolveClick .. => .resolveClick
  | .openWorkspace _ => .openWorkspace
  | .setMainDocument _ => .setMainDocument
  | .createFile .. => .createFile
  | .export .. => .export

abbrev Reply (call : Call) : Type :=
  Except Failure call.operation.Answer

end Call

end LivePreview
