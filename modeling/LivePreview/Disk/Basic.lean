import LivePreview.Failure
import LivePreview.Text.Utf8

/-!
# Files and directories

A `Disk` is a tree of directories and files with a current directory.  Places in
it are lists of names from the root.  A path is resolved name by name: every
place on the way has to be a directory, and two dots lead to the one above.
-/

namespace LivePreview

/-- A place, by the names that lead to it from the root. -/
abbrev Place := List String

/-- What is at a place. -/
inductive Node where
  | directory
  | file (data : ByteArray) (executable : Bool)
  deriving DecidableEq

/-- A tree of files.  The root is there without an entry. -/
structure Disk where
  entries : List (Place × Node)
  current : Place

namespace Disk

def empty : Disk :=
  ⟨[], []⟩

def node? (d : Disk) (place : Place) : Option Node :=
  if place = [] then some .directory
  else (d.entries.find? fun entry => entry.1 = place).map (·.2)

def put (d : Disk) (place : Place) (node : Node) : Disk :=
  if d.entries.any (·.1 = place) then
    { d with entries := d.entries.map fun entry =>
        if entry.1 = place then (place, node) else entry }
  else { d with entries := d.entries ++ [(place, node)] }

def cut (d : Disk) (place : Place) : Disk :=
  { d with entries := d.entries.filter fun entry => !place.isPrefixOf entry.1 }

/-! ## Resolving paths -/

def checkDirectory (d : Disk) (place : Place) : Except SystemError Unit :=
  match d.node? place with
  | some .directory => .ok ()
  | some (.file ..) => .error .notDirectory
  | none => .error .notFound

/-- The place that names lead to; the last one need not exist. -/
def walk (d : Disk) (place : Place) : List String → Except SystemError Place
  | [] => .ok place
  | name :: names =>
    match d.checkDirectory place with
    | .error e => .error e
    | .ok () => d.walk (if name = ".." then place.dropLast else place ++ [name]) names

def steps (p : Path) : List String :=
  ((Text.splitOn '/' p.text.toList).map String.ofList).filter fun name => name ≠ "" ∧ name ≠ "."

/-- Whether a path can only name a directory: it ends in a slash or a dot. -/
def namesDirectory (p : Path) : Bool :=
  match (Text.splitOn '/' p.text.toList).getLast? with
  | some [] => true
  | some ['.'] => true
  | some ['.', '.'] => true
  | _ => false

def resolve (d : Disk) (p : Path) : Except SystemError Place :=
  if p.text.isEmpty then .error .notFound
  else d.walk (if p.isAbsolute then [] else d.current) (steps p)

def lookup (d : Disk) (p : Path) : Except SystemError (Place × Node) :=
  match d.resolve p with
  | .error e => .error e
  | .ok place =>
    match d.node? place with
    | none => .error .notFound
    | some node =>
      if namesDirectory p ∧ node ≠ .directory then .error .notDirectory else .ok (place, node)

def pathOf (place : Place) : Path :=
  ⟨"/" ++ String.intercalate "/" place⟩

/-- The absolute path of an existing node, without dots and needless slashes. -/
def canonical (d : Disk) (p : Path) : Except SystemError Path :=
  (d.lookup p).map fun (place, _) => pathOf place

def has (d : Disk) (p : Path) : Bool :=
  match d.lookup p with
  | .ok _ => true
  | .error _ => false

/-! ## Reading and writing -/

def readBytes (d : Disk) (p : Path) : Except SystemError ByteArray :=
  match d.lookup p with
  | .error e => .error e
  | .ok (_, .directory) => .error .isDirectory
  | .ok (_, .file data _) => .ok data

def readText (d : Disk) (p : Path) : Except SystemError String :=
  match d.readBytes p with
  | .error e => .error e
  | .ok data =>
    match Text.decode? data with
    | some text => .ok text
    | none => .error .invalidText

/-- The text of a file as it is shown: what is no UTF-8 in it is replaced. -/
def shownText (d : Disk) (p : Path) : Option String :=
  (d.readBytes p).toOption.map Text.decodeLossy

/-- The disk with a file written.  Its directory has to exist. -/
def write (d : Disk) (p : Path) (data : ByteArray) : Except SystemError Disk :=
  match d.resolve p with
  | .error e => .error e
  | .ok place =>
    match d.checkDirectory place.dropLast with
    | .error e => .error e
    | .ok () =>
      match d.node? place with
      | some .directory => .error .isDirectory
      | some (.file _ executable) =>
        if namesDirectory p then .error .notDirectory else .ok (d.put place (.file data executable))
      | none =>
        if namesDirectory p then .error .isDirectory else .ok (d.put place (.file data false))

def writeText (d : Disk) (p : Path) (text : String) : Except SystemError Disk :=
  d.write p text.toUTF8

/-- The disk with a place and the places above it made directories. -/
def makePlace (d : Disk) (place : Place) : List String → Except SystemError Disk
  | [] => .ok d
  | name :: names =>
    let place := if name = ".." then place.dropLast else place ++ [name]
    match d.node? place with
    | some .directory => d.makePlace place names
    | some (.file ..) => .error (if names.isEmpty then .exists else .notDirectory)
    | none => (d.put place .directory).makePlace place names

/-- The disk with a directory made, and those above it as needed. -/
def makeDirectories (d : Disk) (p : Path) : Except SystemError Disk :=
  d.makePlace (if p.isAbsolute then [] else d.current) (steps p)

def namesIn (d : Disk) (place : Place) : List String :=
  d.entries.filterMap fun entry =>
    if entry.1.dropLast = place then entry.1.getLast? else none

def list (d : Disk) (p : Path) : Except SystemError (List String) :=
  match d.lookup p with
  | .error e => .error e
  | .ok (_, .file ..) => .error .notDirectory
  | .ok (place, .directory) => .ok (d.namesIn place)

/-- Everything below the directory a path names, sorted; directories end in a slash. -/
def tree (d : Disk) (p : Path) : List String :=
  match d.lookup p with
  | .error _ => []
  | .ok (place, _) =>
    let shown := d.entries.filterMap fun (other, node) =>
      if place.isPrefixOf other ∧ place ≠ other then
        let name := p.text ++ "/" ++ String.intercalate "/" (other.drop place.length)
        some (if node = .directory then name ++ "/" else name)
      else none
    shown.mergeSort fun a b => a ≤ b

def removeFile (d : Disk) (p : Path) : Except SystemError Disk :=
  match d.lookup p with
  | .error e => .error e
  | .ok (_, .directory) => .error .isDirectory
  | .ok (place, .file ..) => .ok (d.cut place)

def removeTree (d : Disk) (p : Path) : Except SystemError Disk :=
  match d.lookup p with
  | .error e => .error e
  | .ok (_, .file ..) => .error .notDirectory
  | .ok (place, .directory) => .ok (d.cut place)

end Disk

end LivePreview
