import LivePreview.Path.Basic

/-!
# The editing buffer

A `Buffer` holds the text of the file being edited, the cursor as a character
offset into it, and whether it differs from what was last loaded or saved.  The
cursor never lies past the end of the text.  A `Snapshot` is what the engine
sees of a buffer at one instant.
-/

namespace LivePreview

/-- The text of a file at one instant, with the cursor in it. -/
structure Snapshot where
  path : Path
  content : String
  cursor : Nat
  deriving DecidableEq, Repr, Inhabited

/-- The text of the file being edited. -/
structure Buffer where
  path : Path
  content : String
  dirty : Bool
  cursor : Nat
  deriving DecidableEq, Repr, Inhabited

namespace Buffer

/-- A freshly loaded buffer with the cursor at the start. -/
def load (path : Path) (content : String) : Buffer :=
  ⟨path, content, false, 0⟩

/-- The cursor moved, at most to the end of the text. -/
def moveCursor (buffer : Buffer) (cursor : Nat) : Buffer :=
  { buffer with cursor := min cursor buffer.content.length }

def edit (buffer : Buffer) (content : String) (cursor : Nat) : Buffer :=
  moveCursor { buffer with content, dirty := true } cursor

def markSaved (buffer : Buffer) : Buffer :=
  { buffer with dirty := false }

def snapshot (buffer : Buffer) : Snapshot :=
  ⟨buffer.path, buffer.content, buffer.cursor⟩

end Buffer

end LivePreview
