import LivePreview.Page.Image
import LivePreview.Path.Basic
import LivePreview.Png.Chunk
import LivePreview.Text.Digits

/-!
# Page files

The compiler writes one file a page, named by the page number.  `pageFiles` picks
the page files out of a directory, in the order of their numbers, and `readPage`
makes a page of the bytes of a file.
-/

namespace LivePreview.Compiler

/-- The page number in a file name, if the file holds a page. -/
def pageNumber? (name : String) : Option Nat :=
  let path : Path := ⟨name⟩
  if path.extension? = some "png" then do
    let stem ← path.stem?
    let digits ← Text.dropBeginning? "page-".toList stem.toList
    Text.word? digits
  else none

def pageFiles (dir : Path) (names : List String) : List Path :=
  let numbered := names.filterMap fun name =>
    (pageNumber? name).map fun number => (number, dir.child name)
  (numbered.mergeSort fun a b => a.1 ≤ b.1).map (·.2)

/-- The page in a file.  A file that is no image has no size. -/
def readPage (index : Nat) (data : ByteArray) : Page :=
  let (width, height) := (Png.size? data).getD (0, 0)
  ⟨index, width, height, data⟩

end LivePreview.Compiler
