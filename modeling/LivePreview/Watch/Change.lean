import LivePreview.Path.Basic

/-!
# Changes on disk

Which notifications of the file system can change what a compile would give: those
about contents, and about files below the root that are neither hidden nor backup
copies.
-/

namespace LivePreview.Watch

/-- What happened to a file or directory. -/
inductive ChangeKind where
  /-- Nobody knows. -/
  | unspecified
  | other
  | accessed
  | created
  | removed
  /-- Its contents, its name, or something unknown was changed. -/
  | modified
  /-- Only its times, owner or permissions were changed. -/
  | metadata
  deriving DecidableEq, Repr, Inhabited

def ChangeKind.isContent : ChangeKind → Bool
  | .created => true
  | .removed => true
  | .modified => true
  | _ => false

/-- Whether a component is hidden, or the name of a backup copy. -/
def isHidden : Path.Component → Bool
  | .root => false
  | .here => true
  | .up => true
  | .name chars => chars.head? == some '.' || chars.getLast? == some '~'

/-- Whether a path lies below the root, with nothing hidden on the way. -/
def isRelevant (root path : Path) : Bool :=
  match path.below? root with
  | none => false
  | some rest => !rest.components.any isHidden

end LivePreview.Watch
