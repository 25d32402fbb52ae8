import LivePreview.Cache.Render

/-!
# What the render cache keeps

Whatever is true of every image that was decoded is true of every image in the cache:
entries come from pages that were loaded, and looking them up only reorders them.

So every image that is kept was decoded from a page with its key.  If no two pages have one
fingerprint but different bytes, a page is then loaded as if it were decoded anew, whatever
is kept (`RenderCache.load_eq`).
-/

namespace LivePreview

namespace Recent

variable {κ α : Type}

def All (P : κ → α → Prop) (store : Recent κ α) : Prop :=
  ∀ entry ∈ store.entries, P entry.1 entry.2

variable {P : κ → α → Prop} {store : Recent κ α}

theorem All.clear (store : Recent κ α) : store.clear.All P := by
  intro entry mem
  cases mem

theorem All.grow (all : store.All P) (capacity : Nat) : (store.grow capacity).All P :=
  all

variable [DecidableEq κ]

theorem All.peek (all : store.All P) {key : κ} {value : α} (found : store.peek? key = some value) :
    P key value := by
  obtain ⟨entry, first, rfl⟩ := Option.map_eq_some_iff.mp found
  have same : entry.1 = key := by simpa using List.find?_some first
  exact same ▸ all entry (List.mem_of_find?_eq_some first)

theorem All.cons_others (all : store.All P) {key : κ} {value : α} (holds : P key value) :
    ∀ entry ∈ (key, value) :: store.others key, P entry.1 entry.2 := by
  intro entry mem
  rcases List.mem_cons.mp mem with rfl | other
  · exact holds
  · exact all entry (List.mem_filter.mp other).1

theorem All.touch (all : store.All P) (key : κ) : (store.touch key).All P := by
  unfold Recent.touch
  split
  · next value found => exact all.cons_others (all.peek found)
  · exact all

theorem All.insert (all : store.All P) {key : κ} {value : α} (holds : P key value) :
    (store.insert key value).All P := by
  intro entry mem
  exact all.cons_others holds entry (List.mem_of_mem_take mem)

end Recent

namespace RenderCache

variable {P : PageKey → PageImage → Prop} {cache : RenderCache}

def All (P : PageKey → PageImage → Prop) (cache : RenderCache) : Prop :=
  cache.pages.All P

theorem All.empty (capacity : Nat) : (empty capacity).All P := by
  intro entry mem
  cases mem

theorem All.clear (cache : RenderCache) : cache.clear.All P :=
  Recent.All.clear cache.pages

theorem All.ensureCapacity (all : cache.All P) (displayed : Nat) :
    (cache.ensureCapacity displayed).1.All P := by
  unfold RenderCache.ensureCapacity
  split
  · exact Recent.All.grow all _
  · exact all

theorem All.mono {Q : PageKey → PageImage → Prop} (all : cache.All P)
    (weaker : ∀ {key image}, P key image → Q key image) : cache.All Q :=
  fun entry mem => weaker (all entry mem)

/-- No two pages have one fingerprint but different bytes. -/
def NoCollision (pages : List Page) : Prop :=
  ∀ page ∈ pages, ∀ page' ∈ pages,
    Fingerprint.of page.data = Fingerprint.of page'.data → page.data = page'.data

variable [ImageDecoder]

/-- A page is loaded with its own key.  If it holds of the page that is decoded, it
    holds of the page that is loaded, and of all that are kept then. -/
theorem All.load (all : cache.All P) {page : Page}
    (decodes : ∀ image, decodeImage page.data = .ok image →
      P (.of page.data page.index) image) :
    (cache.load page).2.All P ∧ ∀ loaded, (cache.load page).1 = .ok loaded →
      loaded.key = .of page.data page.index ∧ P loaded.key loaded.image := by
  unfold RenderCache.load
  simp only [get]
  cases found : cache.pages.peek? (.of page.data page.index) with
  | some image =>
    refine ⟨Recent.All.touch all _, fun loaded ok => ?_⟩
    obtain rfl := Except.ok.inj ok
    exact ⟨rfl, Recent.All.peek all found⟩
  | none =>
    cases decoded : decodeImage page.data with
    | error e => exact ⟨all, fun loaded ok => nomatch ok⟩
    | ok image =>
      refine ⟨Recent.All.insert all (decodes image decoded), fun loaded ok => ?_⟩
      obtain rfl := Except.ok.inj ok
      exact ⟨rfl, decodes image decoded⟩

/-! ## Pages that are decoded anew -/

/-- The payload of a page, decoded without a cache. -/
def decodeAnew (data : ByteArray) (index : Nat) : Except Failure Loaded :=
  match decodeImage data with
  | .error e => .error (.decode index e.message)
  | .ok image => .ok ⟨.of data index, image⟩

theorem decodeAnew_ok {data : ByteArray} {index : Nat} {loaded : Loaded}
    (ok : decodeAnew data index = .ok loaded) :
    loaded.key = .of data index ∧ decodeImage data = .ok loaded.image := by
  unfold decodeAnew at ok
  split at ok
  · cases ok
  · next image decoded =>
    obtain rfl := Except.ok.inj ok
    exact ⟨rfl, decoded⟩

/-- The image of a key is decoded from one of the pages that have the key. -/
def DecodedFrom (pages : List Page) (key : PageKey) (image : PageImage) : Prop :=
  ∃ page ∈ pages, PageKey.of page.data page.index = key ∧ decodeImage page.data = .ok image

variable {pages : List Page} {page : Page} {key : PageKey} {image : PageImage}

theorem DecodedFrom.mono {more : List Page} (sub : pages ⊆ more)
    (decoded : DecodedFrom pages key image) : DecodedFrom more key image := by
  obtain ⟨page, mem, source⟩ := decoded
  exact ⟨page, sub mem, source⟩

/-- Without a collision, a key has the image of every page with its fingerprint. -/
theorem DecodedFrom.unique (distinct : NoCollision pages) (decoded : DecodedFrom pages key image)
    (mem : page ∈ pages) (same : Fingerprint.of page.data = key.fingerprint) :
    decodeImage page.data = .ok image := by
  obtain ⟨source, known, rfl, image⟩ := decoded
  rw [distinct page mem source known same]
  exact image

theorem load_eq (distinct : NoCollision pages) (all : cache.All (DecodedFrom pages))
    (mem : page ∈ pages) : (cache.load page).1 = decodeAnew page.data page.index := by
  unfold RenderCache.load decodeAnew
  simp only [get]
  cases found : cache.pages.peek? (.of page.data page.index) with
  | some image => simp [DecodedFrom.unique distinct (Recent.All.peek all found) mem rfl]
  | none => cases decodeImage page.data <;> rfl

end RenderCache

end LivePreview
