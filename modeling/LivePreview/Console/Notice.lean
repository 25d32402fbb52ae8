import LivePreview.Console.Line
import LivePreview.Event

/-!
# Events in the log

How an event of the engine is told to the user of the command line: notifications
and links always, what else happens only when details are asked for.
-/

namespace LivePreview

def Console.numberList (ns : List Nat) : String :=
  "[" ++ String.intercalate ", " (ns.map toString) ++ "]"

namespace Event

open Console (LogLine)

/-- The log line of an event, if it has one. -/
def logLine? : Event → Option LogLine
  | .notify .error message => some (.log "error" message)
  | .notify .success message => some (.log "session" (Console.green message))
  | .notify .info message => some (.log "session" message)
  | .phase p => some (.debug "preview" s!"phase {p.label}")
  | .pagesChanged indices total =>
    some (.debug "render" s!"pages {Console.numberList indices} of {total} changed")
  | .openUrl url => some (.log "preview" s!"link {url}")
  | .diagnostics markers => some (.debug "compile" s!"{markers.length} marker(s)")
  | .positionChanged _ => none
  | .revealCursor _ _ => none

def errorMessage? : Event → Option String
  | .notify .error message => some message
  | _ => none

end Event

end LivePreview
