import LivePreview.Toml.Value

/-!
# Putting a document together

A document is written as entries under headers, whose names lead from table to
table.  `assemble` puts them together.  A table may be reached on three ways, and
it depends on the way whether it may be added to later:

* a table with a header of its own is closed when the next header comes;
* a table that was only passed by a header gets its own header at most once;
* a table that was passed by the dotted name of an entry is open to other dotted
  names, but gets no header.
-/

namespace LivePreview.Toml

/-- The way on which a table was reached first. -/
inductive Origin where
  /-- By its own header. -/
  | header
  /-- By the header of a table in it. -/
  | passing
  /-- By the dotted name of an entry. -/
  | dotted
  deriving DecidableEq, Repr, Inhabited

/-- What a name stands for while a document is put together. -/
inductive Node where
  | value (value : Toml)
  | table (origin : Origin) (entries : List (String × Node))
  /-- Tables under one header with double brackets, oldest first. -/
  | tables (elements : List (List (String × Node)))
  deriving Inhabited

/-- The names of a table with what they stand for. -/
abbrev Entries : Type :=
  List (String × Node)

abbrev Name : Type :=
  List String

def replace (entries : Entries) (name : String) (node : Node) : Entries :=
  entries.map fun entry => if entry.1 == name then (name, node) else entry

/-- Changes the table that names lead to.  Tables on the way are made when they are
    missing; the last of several tables under one header stands for all of them. -/
def descend (way : Origin) (change : Origin → Entries → Option Entries) :
    Origin → Entries → Name → Option Entries
  | origin, entries, [] => change origin entries
  | _, entries, name :: names =>
    match entries.lookup name with
    | none =>
      (descend way change way [] names).map fun inner => entries ++ [(name, .table way inner)]
    | some (.value _) => none
    | some (.table origin inner) =>
      if way = .dotted ∧ origin = .header then none
      else
        (descend way change origin inner names).map fun inner =>
          replace entries name (.table origin inner)
    | some (.tables elements) =>
      match elements.getLast? with
      | none => none
      | some last =>
        (descend way change .header last names).map fun last =>
          replace entries name (.tables (elements.dropLast ++ [last]))

def insert (entries : Entries) (name : Name) (value : Toml) : Option Entries :=
  match name.getLast? with
  | none => none
  | some last =>
    let path := name.dropLast
    let add (origin : Origin) (inner : Entries) : Option Entries :=
      if (origin == .dotted) == path.isEmpty || hasName inner last then none
      else some (inner ++ [(last, .value value)])
    descend .dotted add .header entries path

def insertAll (entries : Entries) (pairs : List (Name × Toml)) : Option Entries :=
  pairs.foldlM (fun entries (name, value) => insert entries name value) entries

/-! ## Headers -/

/-- A part of a document. -/
structure Section where
  /-- Whether the header has double brackets. -/
  isElement : Bool
  name : Name
  pairs : List (Name × Toml)

def openTable (entries : Entries) (name : String) : Option Entries :=
  match entries.lookup name with
  | none => some []
  | some (.table .passing inner) => some inner
  | some _ => none

/-- Adds a table with a header of its own, at the end of the table it is in. -/
def addTable (pairs : List (Name × Toml)) (name : String) (_ : Origin) (entries : Entries) :
    Option Entries := do
  let inner ← insertAll (← openTable entries name) pairs
  pure (entries.filter (fun entry => entry.1 != name) ++ [(name, .table .header inner)])

def addElement (pairs : List (Name × Toml)) (name : String) (_ : Origin) (entries : Entries) :
    Option Entries := do
  let element ← insertAll [] pairs
  match entries.lookup name with
  | none => pure (entries ++ [(name, .tables [element])])
  | some (.tables elements) => pure (replace entries name (.tables (elements ++ [element])))
  | some _ => none

def addSection (entries : Entries) (part : Section) : Option Entries :=
  match part.name.getLast? with
  | none => none
  | some last =>
    let add := if part.isElement then addElement part.pairs last else addTable part.pairs last
    descend .passing add .header entries part.name.dropLast

/-! ## The result -/

mutual

def Node.finish : Node → Toml
  | .value value => value
  | .table _ entries => .table (finishEntries entries)
  | .tables elements => .array (finishElements elements)

def finishEntries : List (String × Node) → List (String × Toml)
  | [] => []
  | (name, node) :: entries => (name, node.finish) :: finishEntries entries

def finishElements : List (List (String × Node)) → List Toml
  | [] => []
  | entries :: elements => .table (finishEntries entries) :: finishElements elements

end

def inlineTable? (pairs : List (Name × Toml)) : Option Toml :=
  (insertAll [] pairs).map fun entries => .table (finishEntries entries)

/-- A document: the entries before the first header, and its parts. -/
def assemble (pairs : List (Name × Toml)) (parts : List Section) :
    Option (List (String × Toml)) := do
  let top ← insertAll [] pairs
  let entries ← parts.foldlM addSection top
  pure (finishEntries entries)

end LivePreview.Toml
