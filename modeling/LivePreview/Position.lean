import LivePreview.Path.Basic

/-!
# Places in the preview

A `Position` is a point on a page of the preview.  A click on the preview
resolves to a `Jump`: into a source file, to another point of the preview, to an
external link, or nowhere.
-/

namespace LivePreview

/-- A point on a page, which counts from zero. -/
structure Position where
  page : Nat
  x : Float
  y : Float
  deriving DecidableEq, Repr

namespace Position

def origin : Position :=
  ⟨0, 0.0, 0.0⟩

instance : Inhabited Position :=
  ⟨origin⟩

/-- The position moved to the last of `count` pages if it lies beyond; to the
    first page if there are none. -/
def clamp (p : Position) (count : Nat) : Position :=
  { p with page := min p.page (count - 1) }

/-- Whether two positions are the same point, with coordinates compared as
    numbers. -/
def samePoint (p q : Position) : Bool :=
  p.page == q.page && p.x == q.x && p.y == q.y

end Position

/-- What lies under a click. -/
inductive Jump where
  /-- A byte position in a source file. -/
  | file (file : Path) (position : Nat)
  /-- Another point of the preview. -/
  | position (target : Position)
  /-- An external link. -/
  | url (url : String)
  | nowhere
  deriving DecidableEq, Repr, Inhabited

def Jump.label : Jump → String
  | .file .. => "file"
  | .position _ => "position"
  | .url _ => "url"
  | .nowhere => "none"

end LivePreview
