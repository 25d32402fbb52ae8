import LivePreview.Application.Opening
import LivePreview.Interchange
import LivePreview.Json.Printer

/-!
# The report of a preview

What `preview` tells about a document: its diagnostics with their places, and the
pages that were drawn; either as lines of the log or as one JSON object.
-/

namespace LivePreview.Application

open Console (LogLine)
open Preview (Outcome Plan Slot)

/-- What is told about a preview. -/
structure Report where
  document : Path
  phase : Phase
  /-- How the pages were drawn, if they were. -/
  plan : Option Plan
  pages : List Slot
  diagnostics : List Diagnostic
  markers : List Marker
  error : Option String

namespace Report

def make (document : Path) (outcome : Outcome) (session : Session) : Report where
  document
  phase := session.engine.state.phase
  plan :=
    match outcome with
    | .rendered report => some report.plan
    | _ => none
  pages := session.engine.state.pages
  diagnostics := session.engine.state.diagnostics
  markers := session.markers
  error := session.engine.state.lastError

def toJson (r : Report) : Json :=
  let page (index : Nat) (slot : Slot) : Json :=
    .object [("index", .nat index), ("width", .nat slot.image.width),
      ("height", .nat slot.image.height), ("fingerprint", .string slot.key.fingerprint.short)]
  .object [("document", .string r.document.text), ("phase", .string r.phase.name),
    ("plan", .ofOption (fun plan => .string plan.label) r.plan),
    ("pages", .array (r.pages.mapIdx page)),
    ("diagnostics", .ofList Diagnostic.toJson r.diagnostics),
    ("markers", .ofList Marker.toJson r.markers), ("error", .ofOption .string r.error)]

def diagnosticLine (document : Path) (d : Diagnostic) (marker : Marker) : LogLine :=
  let place := s!"{document.text}:{d.location.line}:{d.location.column}"
  .log marker.severity.label
    s!"{place} (chars {marker.start}..{marker.stop}) {marker.message}"

def pageLine (index : Nat) (slot : Slot) : LogLine :=
  let size := s!"{slot.image.width}x{slot.image.height}"
  .debug "render" s!"page {index} {size} {slot.key.fingerprint.short}"

def lines (r : Report) : List LogLine :=
  List.zipWith (diagnosticLine r.document) r.diagnostics r.markers ++
    r.plan.toList.map (fun plan =>
      .log "render" s!"{r.pages.length} page(s), {plan.label} render") ++
    r.pages.mapIdx pageLine

end Report

end LivePreview.Application
