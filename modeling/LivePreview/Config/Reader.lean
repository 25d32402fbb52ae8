import LivePreview.Config.Basic
import LivePreview.Toml.Reader

/-!
# Reading a configuration

A configuration is a TOML document with the tables `preview` and `backend`, both
optional, as are the entries in them.  Entries that nobody knows are ignored but
noted, each by its full name; what is in them is not looked at.

A table may also be given as an array of its values, in their order.
-/

namespace LivePreview.Config

/-- What was read, with the names of the ignored entries, in the order of the text. -/
structure Found (α : Type) where
  settings : α
  ignored : List String
  deriving Repr

/-! ## Values -/

def number? (limit : Nat) : Toml → Option Nat
  | .integer (.ofNat n) => if n < limit then some n else none
  | _ => none

def text? : Toml → Option String
  | .string s => some s
  | _ => none

/-! ## Tables -/

/-- One entry of a table of settings: its name, and how its value is put in. -/
structure Field (α : Type) where
  name : String
  put : α → Toml → Option α

def previewFields : List (Field PreviewSettings) :=
  [⟨"debounce_ms", fun s v => do pure { s with debounce := ← number? Text.wordLimit v }⟩,
    ⟨"cooldown_ms", fun s v => do pure { s with cooldown := ← number? Text.wordLimit v }⟩,
    ⟨"cache_capacity",
      fun s v => do pure { s with cacheCapacity := ← number? Text.wordLimit v }⟩]

def backendFields : List (Field CompilerSettings) :=
  [⟨"typst", fun s v => do pure { s with typst := ← text? v }⟩,
    ⟨"ppi", fun s v => do pure { s with ppi := ← number? Text.halfWordLimit v }⟩,
    ⟨"timeout_ms", fun s v => do pure { s with timeout := ← number? Text.wordLimit v }⟩]

def putEntries {α : Type} (fields : List (Field α)) (path : String) :
    Found α → List (String × Toml) → Option (Found α)
  | found, [] => some found
  | found, (name, value) :: entries =>
    match fields.find? (·.name == name) with
    | some field =>
      match field.put found.settings value with
      | some settings => putEntries fields path { found with settings } entries
      | none => none
    | none =>
      putEntries fields path { found with ignored := found.ignored ++ [path ++ "." ++ name] }
        entries

/-- Puts values in by their order.  Those after the last field do not count. -/
def putItems {α : Type} : List (Field α) → α → List Toml → Option α
  | field :: fields, settings, value :: items =>
    (field.put settings value).bind fun settings => putItems fields settings items
  | _, settings, _ => some settings

/-- The one entry of a point in time, if it is looked at as a table. -/
def momentName : String :=
  "$__toml_private_datetime"

def putTable {α : Type} (fields : List (Field α)) (path : String) (settings : α) :
    Toml → Option (Found α)
  | .table entries => putEntries fields path ⟨settings, []⟩ entries
  | .moment written => putEntries fields path ⟨settings, []⟩ [(momentName, .string written)]
  | .array items => (putItems fields settings items).map fun settings => ⟨settings, []⟩
  | _ => none

/-! ## Documents -/

def putDocument : Found Config → List (String × Toml) → Option (Found Config)
  | found, [] => some found
  | found, (name, value) :: entries =>
    if name = "preview" then
      match putTable previewFields name found.settings.preview value with
      | some ⟨preview, ignored⟩ =>
        putDocument ⟨{ found.settings with preview }, found.ignored ++ ignored⟩ entries
      | none => none
    else if name = "backend" then
      match putTable backendFields name found.settings.backend value with
      | some ⟨backend, ignored⟩ =>
        putDocument ⟨{ found.settings with backend }, found.ignored ++ ignored⟩ entries
      | none => none
    else putDocument { found with ignored := found.ignored ++ [name] } entries

def read? (text : String) : Option (Found Config) :=
  (Toml.read? text).bind (putDocument ⟨standard, []⟩)

end LivePreview.Config
