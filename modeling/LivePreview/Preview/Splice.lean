import LivePreview.Preview.State

/-!
# Plans and splices

A render fetches either every page or only the page under the cursor.  A splice
puts fetched pages into the page list: `spliceAll` replaces the list, `spliceOne`
one slot.  Both take images from the render cache where they can, and both leave
the list alone unless every fetched page could be decoded.
-/

namespace LivePreview.Preview

/-- Which pages a render fetches. -/
inductive Plan where
  | full
  /-- Only the page in one slot. -/
  | single (index : Nat)
  deriving DecidableEq, Repr, Inhabited

namespace Plan

/-- A changed page count takes a full render, and so does a cursor that is on none
    of the pages. -/
def choose (displayed count : Nat) (cursor : Option Position) : Plan :=
  if displayed ≠ count then .full
  else
    match cursor with
    | some p => if p.page < count then .single p.page else .full
    | none => .full

def label : Plan → String
  | .full => "full"
  | .single _ => "single"

end Plan

/-- What a splice changed. -/
structure Spliced where
  /-- The slots that hold another image now. -/
  changed : List Nat
  hits : Nat
  misses : Nat
  deriving DecidableEq, Repr, Inhabited

/-- The first page that is not in the place of its index, with its place. -/
def misplaced? (pages : List Page) : Option (Page × Nat) :=
  pages.zipIdx.find? fun (page, place) => page.index ≠ place

variable [ImageDecoder]

/-- Loads pages one after the other, up to the first that fails. -/
def loadAll (cache : RenderCache) : List Page → Except Failure (List Slot) × RenderCache
  | [] => (.ok [], cache)
  | page :: pages =>
    match cache.load page with
    | (.error f, cache) => (.error f, cache)
    | (.ok loaded, cache) =>
      match loadAll cache pages with
      | (.error f, cache) => (.error f, cache)
      | (.ok slots, cache) => (.ok (⟨loaded.key, loaded.image⟩ :: slots), cache)

/-- How a splice ends, the state after it, and what there is to say about it. -/
structure SpliceResult where
  result : Except Failure Spliced
  state : State
  lines : List Console.LogLine

/-- Replaces the whole list by pages, which must come in the order of their slots. -/
def spliceAll (s : State) (pages : List Page) : SpliceResult :=
  match misplaced? pages with
  | some (page, place) =>
    ⟨.error (.transport .renderAllPages s!"page {page.index} returned at position {place}"), s, []⟩
  | none =>
    let (cache, lines) := s.cache.ensureCapacity pages.length
    match loadAll cache pages with
    | (.error f, after) => ⟨.error f, { s with cache := after }, lines⟩
    | (.ok slots, after) =>
      ⟨.ok ⟨List.range pages.length, after.hits - cache.hits, after.misses - cache.misses⟩,
        { s with cache := after, pages := slots }, lines⟩

/-- Replaces the slot of one page.  A page with the same key changes nothing. -/
def spliceOne (s : State) (page : Page) : SpliceResult :=
  match s.pages[page.index]? with
  | none =>
    ⟨.error (.transport .renderPage
      s!"page {page.index} outside the displayed {s.pages.length} pages"), s, []⟩
  | some slot =>
    match s.cache.load page with
    | (.error f, cache) => ⟨.error f, { s with cache }, []⟩
    | (.ok loaded, cache) =>
      let hits := cache.hits - s.cache.hits
      let misses := cache.misses - s.cache.misses
      if slot.key = loaded.key then ⟨.ok ⟨[], hits, misses⟩, { s with cache }, []⟩
      else
        ⟨.ok ⟨[page.index], hits, misses⟩,
          { s with cache, pages := s.pages.set page.index ⟨loaded.key, loaded.image⟩ }, []⟩

end LivePreview.Preview
