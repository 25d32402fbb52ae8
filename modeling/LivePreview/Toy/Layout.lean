import LivePreview.Diagnostic.Basic
import LivePreview.Png.Image
import LivePreview.Text.Basic
import LivePreview.Text.Utf8

/-!
# A toy layout

The toy compiler lays a text out by three rules: a line that is exactly
`#pagebreak()` starts a new page, a line with `#error` in it is an error, and a
line with `#warn` a warning.  The image of a page is one row of pixels whose
grey levels are the bytes of its text, so equal pages are equal images.
-/

namespace LivePreview.Toy

open Text

def isBreak (line : List Char) : Bool :=
  trim line == "#pagebreak()".toList

/-- A page with one more line; empty lines at its start are dropped. -/
def addLine (page line : List Char) : List Char :=
  if page.isEmpty then line else page ++ '\n' :: line

/-- The pages from `page` on, which has been read up to these lines. -/
def pagesFrom (page : List Char) : List (List Char) → List (List Char)
  | [] => [page]
  | line :: lines =>
    if isBreak line then page :: pagesFrom [] lines else pagesFrom (addLine page line) lines

def splitPages (text : String) : List String :=
  (pagesFrom [] (splitOn '\n' text.toList)).map String.ofList

/-- The page of an offset, and the line within the page, when the lines before are
    on `page` up to `line` and the offset is counted from here. -/
def locateFrom (page line offset : Nat) : List (List Char) → Nat × Nat
  | [] => (page, line)
  | chars :: lines =>
    if offset ≤ chars.length then (page, line)
    else if isBreak chars then locateFrom (page + 1) 0 (offset - (chars.length + 1)) lines
    else locateFrom page (line + 1) (offset - (chars.length + 1)) lines

/-- The page of a character offset, and the line within the page. -/
def locate (text : String) (offset : Nat) : Nat × Nat :=
  locateFrom 0 0 offset (splitOn '\n' text.toList)

/-- The diagnostic for a marker in a line with a one-based number. -/
def scanMarker? (number : Nat) (line : List Char) (marker : String) (severity : Severity) :
    Option Diagnostic :=
  (before? marker.toList line).map fun before =>
    let column := before.length + 1
    { location := ⟨number, column, number, column + marker.length⟩
      severity
      message := s!"scripted {severity.label}"
      hints := ["remove the marker"] }

def scanLine (number : Nat) (line : List Char) : List Diagnostic :=
  (scanMarker? number line "#error" .error).toList ++
    (scanMarker? number line "#warn" .warning).toList

def scanDiagnostics (text : String) : List Diagnostic :=
  (splitOn '\n' text.toList).zipIdx.flatMap fun (line, i) => scanLine (i + 1) line

/-- The image of a page.  The empty page has one black pixel. -/
def draw (text : String) : PageImage :=
  let bytes := text.toUTF8.data.toList
  let row := if bytes.isEmpty then [0] else bytes
  ⟨row.length, 1, ByteArray.mk (row.flatMap fun b => [b, b, b, 255]).toArray⟩

def pagePng (text : String) : ByteArray :=
  Png.encode (draw text)

def levels : List UInt8 → List UInt8
  | red :: _ :: _ :: _ :: rest => red :: levels rest
  | _ => []

def spell (image : PageImage) : String :=
  Text.decodeLossy (ByteArray.mk (levels image.pixels.data.toList).toArray)

end LivePreview.Toy
