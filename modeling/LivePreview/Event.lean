import LivePreview.Diagnostic.Marker
import LivePreview.Position

/-!
# Events

What the engine tells the presentation layer.  A view that follows the events
knows the phase, the markers, which page slots changed and where the preview
points; a notification is a message for the user.
-/

namespace LivePreview

/-- Phase of the compile and render cycle.  `error` is passed through: a failing
    cycle leaves it again at once. -/
inductive Phase where
  | idle
  | compiling
  | rendering
  | error
  deriving DecidableEq, Repr, Inhabited

def Phase.label : Phase → String
  | .idle => "idle"
  | .compiling => "compiling"
  | .rendering => "rendering"
  | .error => "error"

def Phase.name : Phase → String
  | .idle => "Idle"
  | .compiling => "Compiling"
  | .rendering => "Rendering"
  | .error => "Error"

/-- How a notification is meant. -/
inductive Level where
  | info
  | success
  | error
  deriving DecidableEq, Repr, Inhabited

/-- A message to the presentation layer. -/
inductive Event where
  | phase (phase : Phase)
  /-- The markers were replaced. -/
  | diagnostics (markers : List Marker)
  /-- The slots at `indices` hold new images; the list has `total` slots. -/
  | pagesChanged (indices : List Nat) (total : Nat)
  | positionChanged (position : Position)
  /-- The editor is to put its cursor at a character offset of a file. -/
  | revealCursor (file : Path) (offset : Nat)
  | openUrl (url : String)
  | notify (level : Level) (message : String)
  deriving DecidableEq, Repr, Inhabited

namespace Event

def isError : Event → Bool
  | .notify .error _ => true
  | _ => false

end Event

end LivePreview
