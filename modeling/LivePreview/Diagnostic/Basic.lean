/-!
# Compiler diagnostics

A diagnostic is an error or a warning at a span of the source that the compiler
saw, with hints.  Lines and columns count from one.  `tally` counts the errors
and the warnings of a list, and `summary` says so in words.
-/

namespace LivePreview

/-- How bad a diagnostic is. -/
inductive Severity where
  | error
  | warning
  deriving DecidableEq, Repr, Inhabited

def Severity.label : Severity → String
  | .error => "error"
  | .warning => "warning"

/-- A span of source text, with one-based lines and columns. -/
structure Location where
  line : Nat
  column : Nat
  endLine : Nat
  endColumn : Nat
  deriving DecidableEq, Repr, Inhabited

def Location.point (line column : Nat) : Location :=
  ⟨line, column, line, column⟩

/-- One message of the compiler. -/
structure Diagnostic where
  location : Location
  severity : Severity
  message : String
  hints : List String
  deriving DecidableEq, Repr, Inhabited

namespace Diagnostic

def isError (d : Diagnostic) : Bool :=
  d.severity == .error

def tally (ds : List Diagnostic) : Nat × Nat :=
  (ds.countP isError, ds.countP fun d => !d.isError)

def summary (ds : List Diagnostic) : String :=
  match tally ds with
  | (0, 0) => "no diagnostics reported"
  | (errors, 0) => s!"{errors} error(s)"
  | (errors, warnings) => s!"{errors} error(s), {warnings} warning(s)"

end Diagnostic

end LivePreview
