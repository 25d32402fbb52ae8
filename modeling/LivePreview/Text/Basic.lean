/-!
# Plain text

Text is handled as a list of Unicode scalar values; a `String` is opened with
`toList` and closed with `String.ofList`.  This module holds the cuts that the
rest of the library makes: at white space, at a separator, at line ends, and
around a fixed piece of text.

* `trim`, `trimStart`, `trimEnd` drop white space in the sense of the Unicode
  property `White_Space`.
* `splitOn` cuts at every separator, `splitOnce?` at the first one.
* `lines` cuts into lines ended by a line feed, with or without a carriage
  return before it.
-/

namespace LivePreview.Text

/-! ## White space -/

/-- The characters with the Unicode property `White_Space`. -/
def isWhite (c : Char) : Bool :=
  let n := c.toNat
  (9 ≤ n && n ≤ 13) || n == 0x20 || n == 0x85 || n == 0xA0 || n == 0x1680 ||
    (0x2000 ≤ n && n ≤ 0x200A) || n == 0x2028 || n == 0x2029 || n == 0x202F ||
    n == 0x205F || n == 0x3000

def trimStart (cs : List Char) : List Char :=
  cs.dropWhile isWhite

def trimEnd (cs : List Char) : List Char :=
  (cs.reverse.dropWhile isWhite).reverse

def trim (cs : List Char) : List Char :=
  trimEnd (trimStart cs)

/-! ## Separators -/

/-- The pieces between the separators; one more than there are separators. -/
def splitOn (sep : Char) : List Char → List (List Char)
  | [] => [[]]
  | c :: cs =>
    if c = sep then [] :: splitOn sep cs
    else
      match splitOn sep cs with
      | piece :: rest => (c :: piece) :: rest
      | [] => [[c]]

theorem splitOn_ne_nil (sep : Char) (cs : List Char) : splitOn sep cs ≠ [] := by
  cases cs with
  | nil => simp [splitOn]
  | cons c cs =>
    unfold splitOn
    split
    · simp
    · split <;> simp

/-- The text before and after the first separator, if there is one. -/
def splitOnce? (sep : Char) : List Char → Option (List Char × List Char)
  | [] => none
  | c :: cs =>
    if c = sep then some ([], cs)
    else (splitOnce? sep cs).map fun (before, after) => (c :: before, after)

def joinWith (sep : List Char) : List (List Char) → List Char
  | [] => []
  | [piece] => piece
  | piece :: rest => piece ++ sep ++ joinWith sep rest

/-! ## Pieces of text -/

/-- What follows the given beginning, if the text starts with it. -/
def dropBeginning? (beginning cs : List Char) : Option (List Char) :=
  beginning.isPrefixOf? cs

/-- The text before the first occurrence of `piece`, if it occurs. -/
def before? (piece : List Char) : List Char → Option (List Char)
  | [] => if piece.isEmpty then some [] else none
  | c :: cs =>
    if piece.isPrefixOf (c :: cs) then some []
    else (before? piece cs).map (c :: ·)

def occursIn (piece cs : List Char) : Bool :=
  (before? piece cs).isSome

/-! ## Lines -/

/-- A line without the carriage return it may end in. -/
def dropReturn (line : List Char) : List Char :=
  if line.getLast? = some '\r' then line.dropLast else line

/-- The lines among pieces cut at line feeds.  Only a line that was ended by a
    line feed loses its carriage return, and an empty rest is no line. -/
def linesOfPieces : List (List Char) → List (List Char)
  | [] => []
  | [rest] => if rest.isEmpty then [] else [rest]
  | piece :: rest => dropReturn piece :: linesOfPieces rest

def lines (cs : List Char) : List (List Char) :=
  linesOfPieces (splitOn '\n' cs)

/-! ## Strings -/

def trimmed (s : String) : String :=
  String.ofList (trim s.toList)

def linesOf (s : String) : List String :=
  (lines s.toList).map String.ofList

def joined (sep : String) (pieces : List String) : String :=
  String.ofList (joinWith sep.toList (pieces.map String.toList))

/-- Lower case of the ASCII letters; other characters stay. -/
def lowered (s : String) : String :=
  String.ofList (s.toList.map Char.toLower)

end LivePreview.Text
