import LivePreview.Json.Basic

/-!
# Records in JSON

A record is written as an object with a member for each field.  It may be read
from an array as well, which lists the fields in their order.  A choice between
several records is written as one object with a tag member beside the fields, or
as an array that starts with the tag.

Members that belong to no field are ignored; an array must not be longer than
the record.
-/

namespace LivePreview.Json

/-- The fields of a record as they were found. -/
inductive Fields where
  | named (members : List (String × Json))
  | listed (items : List Json)

namespace Fields

def ofJson? (count : Nat) : Json → Option Fields
  | .object members => some (.named members)
  | .array items => if items.length ≤ count then some (.listed items) else none
  | _ => none

/-- The value of the field at a place with a name, if it is there. -/
def find? (fields : Fields) (place : Nat) (name : String) : Option Json :=
  match fields with
  | .named members => member? members name
  | .listed items => items[place]?

def required {α : Type} (fields : Fields) (place : Nat) (name : String)
    (decode : Json → Option α) : Option α :=
  (fields.find? place name).bind decode

def nullable {α : Type} (decode : Json → Option α) : Json → Option (Option α)
  | .null => some none
  | value => (decode value).map some

/-- A field that may be `null`; as a member it may be missing too. -/
def optional {α : Type} (fields : Fields) (place : Nat) (name : String)
    (decode : Json → Option α) : Option (Option α) :=
  match fields.find? place name, fields with
  | some value, _ => nullable decode value
  | none, .named _ => some none
  | none, .listed _ => none

/-- A field with a value to use when it is missing. -/
def defaulted {α : Type} (fields : Fields) (place : Nat) (name : String)
    (decode : Json → Option α) (default : α) : Option α :=
  match fields.find? place name with
  | some value => decode value
  | none => some default

end Fields

/-- The tag of a tagged record, and what is left of the value. -/
def untag? (tag : String) : Json → Option (String × Json)
  | .object members => do
    let name ← (← member? members tag).string?
    pure (name, .object (members.filter fun member => member.1 ≠ tag))
  | .array (.string name :: items) => some (name, .array items)
  | _ => none

/-- Whether what is left of a tagged value fits a choice without fields. -/
def isBare : Json → Bool
  | .array items => items.isEmpty
  | _ => true

/-- The name of a choice without fields: a string, or an object whose only member
    has that name and holds `null`. -/
def choiceName? : Json → Option String
  | .string name => some name
  | .object [(name, .null)] => some name
  | _ => none

def list? {α : Type} (decode : Json → Option α) : Json → Option (List α)
  | .array items => items.mapM decode
  | _ => none

def natBelow? (limit : Nat) (value : Json) : Option Nat :=
  value.nat?.filter (· < limit)

end LivePreview.Json
