import LivePreview.Document.Buffer
import LivePreview.Document.Kind
import LivePreview.Preview.Click
import LivePreview.Text.Offset

/-!
# The editing session

A session has a workspace root, a main document that the preview compiles, and a
buffer with the file being edited, beside the engine that keeps the preview.  A
flag tells whether a save is under way, since only one may be.
-/

namespace LivePreview

open Preview (Engine)

/-- The state of a session. -/
structure Session where
  engine : Engine
  root : Option Path
  main : Option Path
  buffer : Option Buffer
  saving : Bool

namespace Session

def start (engine : Engine) : Session :=
  ⟨engine, none, none, none, false⟩

def currentFile (s : Session) : Option Path :=
  s.buffer.map Buffer.path

/-- Whether the buffer differs from what was loaded or saved. -/
def isDirty (s : Session) : Bool :=
  s.buffer.any Buffer.dirty

def snapshot (s : Session) : Option Snapshot :=
  s.buffer.map Buffer.snapshot

/-- The text of the buffer; empty if nothing is open. -/
def content (s : Session) : String :=
  (s.buffer.map Buffer.content).getD ""

def isMain (s : Session) (path : Path) : Bool :=
  s.main.any (·.same path)

def isOpen (s : Session) (path : Path) : Bool :=
  s.currentFile.any (·.same path)

/-! ## The engine's record -/

def notify (s : Session) (level : Level) (message : String) : Session :=
  { s with engine := s.engine.notify level message }

def report (s : Session) (f : Failure) : Session :=
  s.notify .error f.message

def log (s : Session) (message : String) : Session :=
  { s with engine := s.engine.log "session" message }

def debug (s : Session) (message : String) : Session :=
  { s with engine := s.engine.debug "session" message }

/-! ## What needs no waiting -/

/-- Replaces the text of the buffer; says whether one is open. -/
def edit (s : Session) (content : String) (cursor : Nat) : Session × Bool :=
  ({ s with buffer := s.buffer.map fun b => b.edit content cursor }, s.buffer.isSome)

/-- Moves the cursor of the buffer; says whether one is open. -/
def moveCursor (s : Session) (offset : Nat) : Session × Bool :=
  ({ s with buffer := s.buffer.map fun b => b.moveCursor offset }, s.buffer.isSome)

/-- The markers on the buffer, while it shows the main document. -/
def markers (s : Session) : List Marker :=
  match s.buffer with
  | some b => if s.isMain b.path then s.engine.markersOn b.content else []
  | none => []

def reset (s : Session) : Session :=
  { s with engine := s.engine.reset }

def load (s : Session) (path : Path) (content : String) : Session :=
  ({ s with buffer := some (.load path content) }).debug s!"opened {path.text}"

def shownName (path : Path) : String :=
  path.fileName?.getD path.text

end Session

end LivePreview
