import LivePreview.Cache.Render
import LivePreview.Diagnostic.Marker
import LivePreview.Event
import LivePreview.Preview.Ticket

/-!
# The state of the preview

The `State` is what the preview shows: the displayed page slots, the diagnostics of
the last compile with their markers, the place it points at, and the phase.  The
`Engine` adds the three sequences of tickets and the notes it has made: events
for the presentation layer and lines for the log, oldest first.
-/

namespace LivePreview.Preview

/-- A slot of the page list. -/
structure Slot where
  key : PageKey
  image : PageImage
  deriving DecidableEq

/-- What the preview shows. -/
structure State where
  phase : Phase
  pages : List Slot
  diagnostics : List Diagnostic
  markers : List Marker
  position : Position
  cache : RenderCache
  /-- The last failure, until something is rendered. -/
  lastError : Option String
  /-- The compile whose answer is still missing. -/
  pendingCompile : Option Ticket

def State.empty (cacheCapacity : Nat) : State where
  phase := .idle
  pages := []
  diagnostics := []
  markers := []
  position := .origin
  cache := .empty cacheCapacity
  lastError := none
  pendingCompile := none

/-- An entry of the engine's record. -/
inductive Note where
  | event (event : Event)
  | log (line : Console.LogLine)
  deriving DecidableEq, Repr, Inhabited

/-- The preview with its tickets and its record. -/
structure Engine where
  state : State
  compiles : Sequence
  renders : Sequence
  clicks : Sequence
  notes : List Note

namespace Engine

def start (cacheCapacity : Nat) : Engine :=
  ⟨.empty cacheCapacity, .start, .start, .start, []⟩

def emit (e : Engine) (event : Event) : Engine :=
  { e with notes := e.notes ++ [.event event] }

def notify (e : Engine) (level : Level) (message : String) : Engine :=
  e.emit (.notify level message)

def say (e : Engine) (lines : List Console.LogLine) : Engine :=
  { e with notes := e.notes ++ lines.map .log }

def log (e : Engine) (topic message : String) : Engine :=
  e.say [.log topic message]

def debug (e : Engine) (topic message : String) : Engine :=
  e.say [.debug topic message]

/-- Enters a phase, and says so if it is another one. -/
def setPhase (e : Engine) (phase : Phase) : Engine :=
  let changed := e.state.phase ≠ phase
  let e := { e with state := { e.state with phase } }
  if changed then e.emit (.phase phase) else e

/-- Back to idle, or to compiling while a compile is still out. -/
def settlePhase (e : Engine) : Engine :=
  e.setPhase (if e.state.pendingCompile.isSome then .compiling else .idle)

/-- The diagnostics of the last compile, put onto a text. -/
def markersOn (e : Engine) (text : String) : List Marker :=
  Marker.project text e.state.diagnostics

def eventsOf (notes : List Note) : List Event :=
  notes.filterMap fun note =>
    match note with
    | .event event => some event
    | .log _ => none

def linesOf (notes : List Note) : List Console.LogLine :=
  notes.filterMap fun note =>
    match note with
    | .event _ => none
    | .log line => some line

/-- The record so far, and the engine with an empty one. -/
def takeNotes (e : Engine) : List Note × Engine :=
  (e.notes, { e with notes := [] })

end Engine

end LivePreview.Preview
