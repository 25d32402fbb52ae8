import LivePreview.Text.Basic

/-!
# Paths

A path is a text whose components are separated by slashes.  Its text is kept as
it was written, since it is shown to the user; whether two paths name the same
place is decided on their components, which ignore repeated and trailing slashes
and every dot component but a leading one.

The last component, when it is a name, is the *file name*; its last dot, unless
it is the first character, separates the *stem* from the *extension*.
-/

namespace LivePreview

/-- A path as it was written. -/
structure Path where
  text : String
  deriving DecidableEq, Repr, Inhabited

namespace Path

/-! ## Components -/

/-- One step of a path. -/
inductive Component where
  /-- The slash an absolute path starts with. -/
  | root
  /-- The dot a relative path may start with. -/
  | here
  /-- Two dots. -/
  | up
  /-- A name. -/
  | name (chars : List Char)
  deriving DecidableEq, Repr

/-- The component a piece between slashes stands for, if it counts. -/
def component? : List Char → Option Component
  | [] => none
  | ['.'] => none
  | ['.', '.'] => some .up
  | chars => some (.name chars)

def componentsOf (cs : List Char) : List Component :=
  match Text.splitOn '/' cs with
  | [] => []
  | first :: rest =>
    let start :=
      if first = [] then (if rest = [] then [] else [.root])
      else if first = ['.'] then [.here]
      else (component? first).toList
    start ++ rest.filterMap component?

def components (p : Path) : List Component :=
  componentsOf p.text.toList

def same (p q : Path) : Bool :=
  p.components == q.components

def isAbsolute (p : Path) : Bool :=
  p.text.toList.head? == some '/'

/-- Whether the components of `base` are the first ones of the path. -/
def startsWith (p base : Path) : Bool :=
  base.components.isPrefixOf p.components

/-- Whether the components of `tail` are the last ones of the path. -/
def endsWith (p tail : Path) : Bool :=
  tail.components.isSuffixOf p.components

/-! ## The last component

The functions on characters take the text backwards, last character first. -/

/-- A backward text without the slashes and dot components it ends in.  A root
    slash and a leading dot stay. -/
def dropTail : List Char → List Char
  | '/' :: c :: rest => dropTail (c :: rest)
  | '.' :: '/' :: rest => dropTail ('/' :: rest)
  | rest => rest

def cutLast (back : List Char) : List Char × List Char :=
  (back.takeWhile (· ≠ '/'), back.dropWhile (· ≠ '/'))

def fileNameOf? (cs : List Char) : Option (List Char) :=
  let last := (cutLast (dropTail cs.reverse)).1.reverse
  match component? last with
  | some (.name chars) => some chars
  | _ => none

/-- The name in the last component, when it is a name. -/
def fileName? (p : Path) : Option String :=
  (fileNameOf? p.text.toList).map String.ofList

/-- The text before the last component, without the slashes between. -/
def parentOf? (cs : List Char) : Option (List Char) :=
  match dropTail cs.reverse with
  | [] => none
  | ['/'] => none
  | back => some (dropTail (cutLast back).2).reverse

/-- The path without its last component.  The empty path and the root have none. -/
def parent? (p : Path) : Option Path :=
  (parentOf? p.text.toList).map fun cs => ⟨String.ofList cs⟩

/-! ## Stem and extension -/

/-- A file name cut at its last dot, unless that dot is its first character. -/
def cutExtension (name : List Char) : List Char × Option (List Char) :=
  let back := name.reverse
  let tail := back.takeWhile (· ≠ '.')
  match back.dropWhile (· ≠ '.') with
  | [] => (name, none)
  | [_] => (name, none)
  | _ :: stem => (stem.reverse, some tail.reverse)

def stem? (p : Path) : Option String :=
  (fileNameOf? p.text.toList).map fun name => String.ofList (cutExtension name).1

def extension? (p : Path) : Option String :=
  (fileNameOf? p.text.toList).bind fun name => (cutExtension name).2.map String.ofList

/-! ## Building paths -/

/-- The path `q` seen from `p`: an absolute `q` stands for itself. -/
def join (p q : Path) : Path :=
  if q.isAbsolute then q
  else
    match p.text.toList.getLast? with
    | none => q
    | some '/' => ⟨p.text ++ q.text⟩
    | some _ => ⟨p.text ++ "/" ++ q.text⟩

def child (p : Path) (name : String) : Path :=
  p.join ⟨name⟩

/-- The path with the extension of its file name replaced or added.  A path
    without a file name stays as it is. -/
def setExtension (p : Path) (extension : String) : Path :=
  match fileNameOf? p.text.toList with
  | none => p
  | some name =>
    let before := (cutLast (dropTail p.text.toList.reverse)).2.reverse
    let stem := String.ofList (before ++ (cutExtension name).1)
    if extension.isEmpty then ⟨stem⟩ else ⟨stem ++ "." ++ extension⟩

/-- The path with its file name replaced; a path without one gets one. -/
def setFileName (p : Path) (name : String) : Path :=
  match p.fileName?, p.parent? with
  | some _, some dir => dir.child name
  | _, _ => p.child name

/-! ## Parts of a path -/

/-- A text without the slashes and dot components it starts with. -/
def dropLead : List Char → List Char
  | '/' :: rest => dropLead rest
  | '.' :: '/' :: rest => dropLead rest
  | ['.'] => []
  | rest => rest

/-- A text, past its root, without its first `n` components. -/
def dropComponents : Nat → List Char → List Char
  | 0, cs => dropLead cs
  | n + 1, cs => dropComponents n ((dropLead cs).dropWhile (· ≠ '/'))

/-- The rest of the path below `base`, if it lies there. -/
def below? (p base : Path) : Option Path :=
  if p.startsWith base then
    match base.components with
    | [] => some p
    | .root :: more | .here :: more =>
      let cs := dropComponents more.length (p.text.toList.drop 1)
      some ⟨String.ofList (dropTail cs.reverse).reverse⟩
    | more =>
      let cs := dropComponents more.length p.text.toList
      some ⟨String.ofList (dropTail cs.reverse).reverse⟩
  else none

def ancestors (p : Path) : List Path :=
  go p.text.length p
where
  /-- At most `n` parents. -/
  go : Nat → Path → List Path
    | 0, p => [p]
    | n + 1, p =>
      match p.parent? with
      | none => [p]
      | some dir => p :: go n dir

end Path

end LivePreview
