/-!
# JSON values

The values of the interchange format, with the members of an object in the order
they were written.  A number keeps its kind: whole numbers of 64 bits stay exact,
everything else is a floating-point number.
-/

namespace LivePreview

/-- A JSON number. -/
inductive Json.Number where
  /-- A whole number from zero up. -/
  | natural (n : Nat)
  /-- A whole number below zero, by its distance from zero. -/
  | negative (n : Nat)
  | float (x : Float)
  deriving DecidableEq, Repr, Inhabited

/-- A JSON value. -/
inductive Json where
  | null
  | bool (b : Bool)
  | number (n : Json.Number)
  | string (s : String)
  | array (items : List Json)
  | object (members : List (String × Json))
  deriving Repr, Inhabited

namespace Json

def nat (n : Nat) : Json :=
  .number (.natural n)

def float (x : Float) : Json :=
  .number (.float x)

def ofOption {α : Type} (encode : α → Json) : Option α → Json
  | none => .null
  | some a => encode a

def ofList {α : Type} (encode : α → Json) (items : List α) : Json :=
  .array (items.map encode)

/-- The members with one more, which replaces an older one of the same name. -/
def insertMember (members : List (String × Json)) (name : String) (value : Json) :
    List (String × Json) :=
  if members.any (·.1 == name) then
    members.map fun member => if member.1 == name then (name, value) else member
  else members ++ [(name, value)]

def member? (members : List (String × Json)) (name : String) : Option Json :=
  (members.find? (·.1 == name)).map (·.2)

def get? (value : Json) (name : String) : Option Json :=
  match value with
  | .object members => member? members name
  | _ => none

def string? : Json → Option String
  | .string s => some s
  | _ => none

def nat? : Json → Option Nat
  | .number (.natural n) => some n
  | _ => none

def float? : Json → Option Float
  | .number (.natural n) => some (Float.ofNat n)
  | .number (.negative n) => some (-Float.ofNat n)
  | .number (.float x) => some x
  | _ => none

def bool? : Json → Option Bool
  | .bool b => some b
  | _ => none

def array? : Json → Option (List Json)
  | .array items => some items
  | _ => none

end Json

end LivePreview
