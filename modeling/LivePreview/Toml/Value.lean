import LivePreview.Text.Basic

/-!
# TOML values

A document is a table: a list of names with values, in the order in which they were
written.  Fractional numbers and points in time are kept as they were written.
-/

namespace LivePreview

/-- A value. -/
inductive Toml where
  | string (s : String)
  | integer (i : Int)
  | fractional (written : String)
  | boolean (b : Bool)
  /-- A date, a time of day, or both. -/
  | moment (written : String)
  | array (items : List Toml)
  | table (entries : List (String × Toml))
  deriving Repr, Inhabited

namespace Toml

/-- The first number of 64 bits that has no positive sign. -/
def integerLimit : Nat :=
  1 <<< 63

def hasName {α : Type} (entries : List (String × α)) (name : String) : Bool :=
  entries.any fun entry => entry.1 == name

end Toml

end LivePreview
