import LivePreview.Diagnostic.Basic
import LivePreview.Text.LineIndex

/-!
# Markers in the live buffer

Diagnostics refer to the source that was compiled, which may lag behind the
text in the editor.  `project` puts them onto a text as markers between two
character offsets, clamping every location into that text; an end that falls
before its start is moved to the start.
-/

namespace LivePreview

/-- A diagnostic shown in the editor, between two character offsets. -/
structure Marker where
  start : Nat
  stop : Nat
  severity : Severity
  /-- The message, with one line per hint after it. -/
  message : String
  deriving DecidableEq, Repr, Inhabited

namespace Marker

def messageWithHints (message : String) (hints : List String) : String :=
  hints.foldl (fun text hint => text ++ "\nhint: " ++ hint) message

def ofDiagnostic (index : Text.LineIndex) (d : Diagnostic) : Marker :=
  let start := index.offset d.location.line d.location.column
  let stop := index.offset d.location.endLine d.location.endColumn
  { start
    stop := max stop start
    severity := d.severity
    message := messageWithHints d.message d.hints }

def project (text : String) (ds : List Diagnostic) : List Marker :=
  ds.map (ofDiagnostic (Text.LineIndex.ofText text))

end Marker

end LivePreview
