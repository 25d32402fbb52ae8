import LivePreview.Cache.Recent
import LivePreview.Console.Line
import LivePreview.Failure
import LivePreview.Page.Image
import LivePreview.Page.Key
import LivePreview.Text.Digits

/-!
# The render cache

Decoded pages are kept by their keys, so that a page that did not change is not
decoded again.  The cache counts how often a page was found since it was last
cleared.  It grows to twice the number of displayed pages, so that a full
render never evicts its own pages.
-/

namespace LivePreview

/-- The decoded pages used last, and how often one was found. -/
structure RenderCache where
  pages : Recent PageKey PageImage
  hits : Nat
  misses : Nat

namespace RenderCache

def empty (capacity : Nat) : RenderCache :=
  ⟨.empty capacity, 0, 0⟩

def size (cache : RenderCache) : Nat :=
  cache.pages.size

def capacity (cache : RenderCache) : Nat :=
  cache.pages.capacity

/-- The image of a key, which becomes the most recent one. -/
def get (cache : RenderCache) (key : PageKey) : Option PageImage × RenderCache :=
  (cache.pages.peek? key, { cache with pages := cache.pages.touch key })

def set (cache : RenderCache) (key : PageKey) (image : PageImage) : RenderCache :=
  { cache with pages := cache.pages.insert key image }

def clear (cache : RenderCache) : RenderCache :=
  ⟨cache.pages.clear, 0, 0⟩

def wanted (displayed : Nat) : Nat :=
  min (2 * displayed) (Text.wordLimit - 1)

/-- The cache with room for twice the displayed pages, and what there is to say
    about it. -/
def ensureCapacity (cache : RenderCache) (displayed : Nat) :
    RenderCache × List Console.LogLine :=
  if cache.capacity < wanted displayed then
    ({ cache with pages := cache.pages.grow (wanted displayed) },
      [.debug "cache" s!"capacity {cache.capacity} -> {wanted displayed}"])
  else (cache, [])

variable [ImageDecoder]

/-- A decoded page with its key. -/
structure Loaded where
  key : PageKey
  image : PageImage

/-- The image of a page, decoded and kept if it is not there.  A page that is no
    image changes nothing. -/
def load (cache : RenderCache) (page : Page) : Except Failure Loaded × RenderCache :=
  let key := PageKey.of page.data page.index
  match cache.get key with
  | (some image, cache) => (.ok ⟨key, image⟩, { cache with hits := cache.hits + 1 })
  | (none, _) =>
    match decodeImage page.data with
    | .error e => (.error (.decode page.index e.message), cache)
    | .ok image =>
      (.ok ⟨key, image⟩, { cache.set key image with misses := cache.misses + 1 })

end RenderCache

end LivePreview
