import LivePreview.Toml.Assembly
import LivePreview.Toml.Quoted
import LivePreview.Toml.Scalar

/-!
# Reading TOML

`Toml.read?` reads a document: lines with an entry, a header, a comment or nothing.
Values may be nested up to a limit, and so may names.  Each step of a reader
consumes a character, so the length of the text, given as fuel, bounds them.
-/

namespace LivePreview.Toml

/-- The number of parts of a name, and of values around a value, that is too large. -/
def depthLimit : Nat := 80

/-! ## Comments -/

def dropComment : List Char → List Char
  | '#' :: rest => rest.dropWhile isPrintable
  | cs => cs

/-- The lines after the current one, which holds no more than a comment. -/
def finishLine? (cs : List Char) : Option (List Char) :=
  match dropComment (dropBlanks cs) with
  | [] => some []
  | rest => lineEnd? rest

/-- Text without the blanks, line ends and comments it starts with. -/
def dropGap : Nat → List Char → List Char
  | 0, cs => cs
  | fuel + 1, cs =>
    match dropLines cs with
    | '#' :: rest => dropGap fuel (rest.dropWhile isPrintable)
    | rest => rest

/-! ## Names -/

def isBareChar (c : Char) : Bool :=
  c.isAlphanum || c == '_' || c == '-'

def simpleName? (cs : List Char) : Option (String × List Char) :=
  match lineText? cs with
  | some found => some found
  | none =>
    match cs.span isBareChar with
    | ([], _) => none
    | (chars, rest) => some (String.ofList chars, rest)

/-- A name with dots, from here on; `back` holds the parts before, last first. -/
def nameFrom? : Nat → Name → List Char → Option (Name × List Char)
  | 0, _, _ => none
  | fuel + 1, back, cs =>
    match simpleName? (dropBlanks cs) with
    | none => none
    | some (part, rest) =>
      match dropBlanks rest with
      | '.' :: rest => nameFrom? fuel (part :: back) rest
      | rest => some ((part :: back).reverse, rest)

def name? (cs : List Char) : Option (Name × List Char) :=
  nameFrom? (depthLimit - 1) [] cs

/-! ## Values -/

mutual

/-- A value that starts at the first character; `depth` counts the values around it. -/
def value? (fuel depth : Nat) (cs : List Char) : Option (Toml × List Char) :=
  match fuel with
  | 0 => none
  | fuel + 1 =>
    match cs with
    | '"' :: _ => (text? cs).map fun (s, rest) => (.string s, rest)
    | '\'' :: _ => (text? cs).map fun (s, rest) => (.string s, rest)
    | '[' :: rest => if depth + 1 < depthLimit then items? fuel (depth + 1) [] rest else none
    | '\x7b' :: rest =>
      if depth + 1 < depthLimit then
        match dropBlanks rest with
        | '\x7d' :: rest => some (.table [], rest)
        | rest => pairs? fuel (depth + 1) [] rest
      else none
    | _ => scalar? cs

/-- The items of an array from here on; `back` holds those before, last first.  A comma
    may follow the last one. -/
def items? (fuel depth : Nat) (back : List Toml) (cs : List Char) : Option (Toml × List Char) :=
  match fuel with
  | 0 => none
  | fuel + 1 =>
    match dropGap fuel cs with
    | ']' :: rest => some (.array back.reverse, rest)
    | start =>
      match value? fuel depth start with
      | none => none
      | some (item, rest) =>
        match dropGap fuel rest with
        | ',' :: rest => items? fuel depth (item :: back) rest
        | ']' :: rest => some (.array (item :: back).reverse, rest)
        | _ => none

/-- The entries of an inline table from here on; `back` holds those before, last first.
    No comma may follow the last one. -/
def pairs? (fuel depth : Nat) (back : List (Name × Toml)) (cs : List Char) :
    Option (Toml × List Char) :=
  match fuel with
  | 0 => none
  | fuel + 1 =>
    match name? cs with
    | some (name, '=' :: rest) =>
      match value? fuel depth (dropBlanks rest) with
      | none => none
      | some (value, rest) =>
        match dropBlanks rest with
        | ',' :: rest => pairs? fuel depth ((name, value) :: back) rest
        | '\x7d' :: rest =>
          (inlineTable? ((name, value) :: back).reverse).map fun table => (table, rest)
        | _ => none
    | _ => none

end

/-! ## Lines -/

/-- What a line holds. -/
inductive Line where
  | nothing
  | pair (name : Name) (value : Toml)
  | header (isElement : Bool) (name : Name)

/-- A header, from the character after its first bracket on. -/
def header? (cs : List Char) : Option (Line × List Char) :=
  match cs with
  | '[' :: rest =>
    match name? rest with
    | some (name, ']' :: ']' :: rest) => some (.header true name, rest)
    | _ => none
  | rest =>
    match name? rest with
    | some (name, ']' :: rest) => some (.header false name, rest)
    | _ => none

def pair? (fuel : Nat) (cs : List Char) : Option (Line × List Char) :=
  match name? cs with
  | some (name, '=' :: rest) =>
    (value? fuel 0 (dropBlanks rest)).map fun (value, rest) => (.pair name value, rest)
  | _ => none

/-- The line that a text starts with, up to the comment. -/
def line? (fuel : Nat) (cs : List Char) : Option (Line × List Char) :=
  match dropBlanks cs with
  | [] => some (.nothing, [])
  | '#' :: rest => some (.nothing, '#' :: rest)
  | '\n' :: rest => some (.nothing, '\n' :: rest)
  | '\r' :: rest => some (.nothing, '\r' :: rest)
  | '[' :: rest => header? rest
  | rest => pair? fuel rest

def lines? : Nat → List Char → Option (List Line)
  | 0, _ => none
  | fuel + 1, cs =>
    match line? (fuel + 1) cs with
    | none => none
    | some (line, rest) =>
      match finishLine? rest with
      | none => none
      | some [] => some [line]
      | some rest => (lines? fuel rest).map (line :: ·)

/-! ## Documents -/

/-- The entries before the first header among lines, and the parts under headers. -/
def partition : List Line → List (Name × Toml) × List Section
  | [] => ([], [])
  | .nothing :: lines => partition lines
  | .pair name value :: lines =>
    let (pairs, parts) := partition lines
    ((name, value) :: pairs, parts)
  | .header isElement name :: lines =>
    let (pairs, parts) := partition lines
    ([], ⟨isElement, name, pairs⟩ :: parts)

def dropMark : List Char → List Char
  | '\ufeff' :: rest => rest
  | cs => cs

def read? (text : String) : Option (List (String × Toml)) := do
  let cs := dropMark text.toList
  let (pairs, parts) := partition (← lines? (4 * cs.length + 4) cs)
  assemble pairs parts

end LivePreview.Toml
