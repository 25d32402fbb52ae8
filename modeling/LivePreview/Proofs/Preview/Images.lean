import LivePreview.Page.Decoder
import LivePreview.Proofs.Preview.Showing
import LivePreview.Toy.Layout

/-!
# Which images are held

An image is held in a slot of the page list or in the cache, under the key of the slot
or of the entry.  Every slot has the key of its own place, and every image that is held
was decoded from a page that the backend delivered for that place: from bytes with the
fingerprint in the key (`images_of_deliveries`).  This holds however many pages come,
in whatever places and with whatever indices, and whether or not they can be decoded.

That an image has the right fingerprint does not yet say that it is the image of every
page with this fingerprint.  This takes two deliveries with one fingerprint to be the
same bytes, and only where the theorem says so is it assumed.
-/

namespace LivePreview.Preview

open RenderCache (DecodedFrom NoCollision)

/-- A page in a reply, and the place it was asked for. -/
structure Delivery where
  place : Nat
  page : Page

/-- What a reply delivers.  A full render asks for the pages in the order of their
    places. -/
def brought : (call : Call) → call.Reply → List Delivery
  | .renderAllPages, .ok pages => pages.zipIdx.map fun (page, place) => ⟨place, page⟩
  | .renderPage place, .ok page => [⟨place, page⟩]
  | _, _ => []

/-- The pages that are delivered in their places. -/
def inPlace (deliveries : List Delivery) : List Page :=
  (deliveries.filter fun d => d.page.index = d.place).map Delivery.page

theorem mem_inPlace {deliveries : List Delivery} {page : Page} :
    page ∈ inPlace deliveries ↔ ⟨page.index, page⟩ ∈ deliveries := by
  simp only [inPlace, List.mem_map, List.mem_filter, decide_eq_true_eq]
  constructor
  · rintro ⟨⟨place, page⟩, ⟨mem, placed⟩, rfl⟩
    obtain rfl : page.index = place := placed
    exact mem
  · exact fun mem => ⟨_, ⟨mem, rfl⟩, rfl⟩

theorem inPlace_mono {earlier later : List Delivery} (sub : earlier ⊆ later) :
    inPlace earlier ⊆ inPlace later :=
  fun _ mem => mem_inPlace.mpr (sub (mem_inPlace.mp mem))

theorem inPlace_subset (deliveries : List Delivery) :
    inPlace deliveries ⊆ deliveries.map Delivery.page :=
  fun _ mem => List.mem_map_of_mem (mem_inPlace.mp mem)

/-! ## What splices hold on to -/

/-- Every slot has the key of its place, and `P` holds of the images in the slots and in
    the cache. -/
structure Holds (P : PageKey → PageImage → Prop) (display : List Slot × RenderCache) : Prop where
  placed : ∀ {i : Nat} {slot : Slot}, display.1[i]? = some slot → slot.key.index = i
  slots : ∀ slot ∈ display.1, P slot.key slot.image
  cache : display.2.All P

section Splices

variable {P : PageKey → PageImage → Prop} {s : State}

theorem Holds.mono {Q : PageKey → PageImage → Prop} {display : List Slot × RenderCache}
    (holds : Holds P display) (weaker : ∀ {key image}, P key image → Q key image) :
    Holds Q display where
  placed := holds.placed
  slots slot mem := weaker (holds.slots slot mem)
  cache entry mem := weaker (holds.cache entry mem)

/-- Nothing is shown, and the cache is empty. -/
theorem Holds.blank {cache : RenderCache} (all : cache.All P) : Holds P ([], cache) where
  placed shown := nomatch shown
  slots _ mem := nomatch mem
  cache := all

/-- An image is held under a key, in a slot of the page list or in the cache. -/
def Engine.HasImage (e : Engine) (key : PageKey) (image : PageImage) : Prop :=
  ⟨key, image⟩ ∈ e.state.pages ∨ (key, image) ∈ e.state.cache.pages.entries

theorem Holds.hasImage {e : Engine} (holds : Holds P e.display) {key : PageKey}
    {image : PageImage} (has : e.HasImage key image) : P key image :=
  has.elim (holds.slots _) (holds.cache _)

variable [ImageDecoder]

theorem decodes_of_mem {pages : List Page} {page : Page} (mem : page ∈ pages) :
    Decodes (DecodedFrom pages) page :=
  fun _ decoded => ⟨page, mem, rfl, decoded⟩

/-- Pages out of place are refused before any of them is decoded, so only pages in their
    places need to decode to what is held. -/
theorem spliceAll_holds (holds : Holds P (s.pages, s.cache)) {pages : List Page}
    (decodes : ∀ pair ∈ pages.zipIdx, pair.1.index = pair.2 → Decodes P pair.1) :
    Holds P ((spliceAll s pages).state.pages, (spliceAll s pages).state.cache) := by
  unfold spliceAll
  split
  · exact holds
  · next placed =>
    have each : ∀ page ∈ pages, Decodes P page := by
      intro page mem
      obtain ⟨i, bound, rfl⟩ := List.mem_iff_getElem.mp mem
      have pair : (pages[i], i) ∈ pages.zipIdx := List.mem_zipIdx_iff_getElem?.mpr (by simp)
      have inPlace : pages[i].index = i := by
        simpa using List.find?_eq_none.mp placed _ pair
      exact decodes (pages[i], i) pair inPlace
    obtain ⟨after, loads⟩ := loadAll_all (holds.cache.ensureCapacity pages.length) each
    dsimp only
    split
    · -- a page that cannot be decoded leaves the slots as they were; the cache has grown
      next f cache failed => exact ⟨holds.placed, holds.slots, by simpa [failed] using after⟩
    · next slots cache ok =>
      simp only [ok] at after loads
      obtain ⟨keys, hold⟩ := loads slots rfl
      refine ⟨fun {i slot} shown => ?_, hold, after⟩
      have key := congrArg (·[i]?) (keys.trans (index_of_placed placed))
      simp only [List.getElem?_map, shown, Option.map_some, List.getElem?_zipIdx] at key
      obtain ⟨pair, at_i, same⟩ := Option.map_eq_some_iff.mp key.symm
      obtain ⟨page, -, rfl⟩ := Option.map_eq_some_iff.mp at_i
      simp [← same, PageKey.of]

/-- A page is spliced in under the key of the slot that it takes, or not at all. -/
theorem spliceOne_holds (holds : Holds P (s.pages, s.cache)) {page : Page}
    (decodes : Decodes P page) :
    Holds P ((spliceOne s page).state.pages, (spliceOne s page).state.cache) := by
  obtain ⟨after, loads⟩ := holds.cache.load decodes
  unfold spliceOne
  split
  · exact holds
  · next old shown =>
    split
    · next f cache failed => exact ⟨holds.placed, holds.slots, by simpa [failed] using after⟩
    · next loaded cache ok =>
      simp only [ok] at after loads
      obtain ⟨key, image⟩ := loads loaded rfl
      dsimp only
      split
      · exact ⟨holds.placed, holds.slots, after⟩
      · refine ⟨fun {i slot} taken => ?_, fun slot mem => ?_, after⟩
        · rw [List.getElem?_set] at taken
          split at taken
          · next same =>
            split at taken
            · obtain rfl := Option.some.inj taken
              simp [key, PageKey.of, same]
            · cases taken
          · exact holds.placed taken
        · rcases List.mem_or_eq_of_mem_set mem with kept | rfl
          · exact holds.slots slot kept
          · exact image

end Splices

/-! ## Steps and runs -/

theorem Engine.reset_holds {P : PageKey → PageImage → Prop} (e : Engine) :
    Holds P e.reset.display := by
  simp only [display, reset, setPhase_state]
  exact .blank (RenderCache.All.clear _)

section Runs

variable [ImageDecoder]

theorem Cycle.Splices.holds {P : PageKey → PageImage → Prop} {e : Engine} {c : Cycle}
    {reply : c.call.Reply} {plan : Plan} {splice : SpliceResult}
    (splices : Splices e c reply plan splice) (holds : Holds P e.display)
    (decodes : ∀ page ∈ inPlace (brought c.call reply), Decodes P page) :
    Holds P (splice.state.pages, splice.state.cache) := by
  cases splices with
  | all r cursor pages =>
    refine spliceAll_holds holds fun pair mem placed => decodes pair.1 (mem_inPlace.mpr ?_)
    exact List.mem_map.mpr ⟨pair, mem, by rw [placed]⟩
  | one r cursor page =>
    exact spliceOne_holds holds (decodes page (mem_inPlace.mpr (List.mem_singleton_self _)))

theorem Activity.resume_holds {P : PageKey → PageImage → Prop} {a : Activity} {e : Engine}
    {reply : a.call.Reply} (holds : Holds P e.display)
    (decodes : ∀ page ∈ inPlace (brought a.call reply), Decodes P page) :
    Holds P (a.resume e reply).1.display := by
  cases a with
  | cycle c =>
    have displays := c.resume_displays e reply
    show Holds P (c.resume e reply).1.display
    revert displays
    generalize c.resume e reply = step
    rintro (⟨splices, display, _⟩ | ⟨display, _⟩)
    · exact display ▸ splices.holds holds decodes
    · exact display ▸ holds
  | click c => exact (c.resume_display e reply) ▸ holds

namespace BusyEngine

def Act.brought : Act → List Delivery
  | .resumes a reply _ => Preview.brought a.call reply
  | _ => []

/-- All that was delivered so far, to operations of which some were no longer wanted. -/
def deliveries (moves : List (Move BusyEngine Act)) : List Delivery :=
  moves.flatMap (·.act.brought)

theorem holds_of_step {before : List Delivery} {s t : BusyEngine} {act : Act} (step : Step s act t)
    (holds : Holds (DecodedFrom (inPlace before)) s.engine.display) :
    Holds (DecodedFrom (inPlace (before ++ act.brought))) t.engine.display := by
  have grown := holds.mono (Q := DecodedFrom (inPlace (before ++ act.brought)))
    (DecodedFrom.mono (inPlace_mono (List.subset_append_left ..)))
  cases step with
  | starts demand => exact (demand.start_display s.engine) ▸ grown
  | resets => exact Engine.reset_holds _
  | resumes first waits reply =>
    refine Activity.resume_holds grown fun page mem => decodes_of_mem ?_
    exact inPlace_mono (List.subset_append_right ..) mem

/-- What is held after a run was delivered in it. -/
theorem holds_of_run {cacheCapacity : Nat} {moves : List (Move BusyEngine Act)} {s : BusyEngine}
    (run : Run Step (.idle (.start cacheCapacity)) moves s) :
    Holds (DecodedFrom (inPlace (deliveries moves))) s.engine.display := by
  refine run.keeps
    (P := fun moves s => Holds (DecodedFrom (inPlace (deliveries moves))) s.engine.display)
    (.blank (RenderCache.All.empty _)) fun {moves s act t} holds step => ?_
  have grows : deliveries (moves ++ [⟨s, act, t⟩]) = deliveries moves ++ act.brought := by
    simp [deliveries]
  exact grows ▸ holds_of_step step holds

end BusyEngine

namespace BusyEngine

/-- Whatever the backend delivers, and in whatever order operations start and go on: a
    slot has the key of its place, and every image that is held under a key is decoded
    from a page delivered for the place in the key, with the fingerprint in the key.  If
    no two deliveries collide, it is then the image of all deliveries with this
    fingerprint, and nothing is held under the fingerprint of one that is no image. -/
theorem images_of_deliveries {cacheCapacity : Nat} {moves : List (Move BusyEngine Act)}
    {s : BusyEngine} (run : Run Step (.idle (.start cacheCapacity)) moves s) :
    (∀ {i : Nat} {slot : Slot}, s.engine.state.pages[i]? = some slot → slot.key.index = i) ∧
    (∀ {key : PageKey} {image : PageImage}, s.engine.HasImage key image →
      DecodedFrom (inPlace (deliveries moves)) key image) ∧
    (NoCollision ((deliveries moves).map Delivery.page) → ∀ d ∈ deliveries moves,
      ∀ {key : PageKey} {image : PageImage}, s.engine.HasImage key image →
        (Fingerprint.of d.page.data = key.fingerprint → decodeImage d.page.data = .ok image) ∧
        ((∀ decoded, decodeImage d.page.data ≠ .ok decoded) →
          Fingerprint.of d.page.data ≠ key.fingerprint)) := by
  have holds := holds_of_run run
  refine ⟨holds.placed, holds.hasImage, fun distinct d mem key image has => ?_⟩
  have decodes := ((holds.hasImage has).mono (inPlace_subset _)).unique distinct
    (List.mem_map_of_mem mem)
  exact ⟨decodes, fun broken same => broken image (decodes same)⟩

end BusyEngine

end Runs

namespace BusyEngine

attribute [local instance] pngDecoder

/-- A render is overtaken by another one and delivered no image; the other is delivered
    a page.  Only the page is held. -/
theorem empty_page_not_held : ∃ moves s, Run Step (.idle (.start 4)) moves s ∧
    NoCollision ((deliveries moves).map Delivery.page) ∧
    ∃ broken ∈ deliveries moves, ∃ key image,
      s.engine.HasImage key image ∧ DecodedFrom (inPlace (deliveries moves)) key image ∧
      (∀ decoded, decodeImage broken.page.data ≠ .ok decoded) ∧
      Fingerprint.of broken.page.data ≠ key.fingerprint := by
  let source : Snapshot := ⟨default, "", 0⟩
  let empty : Page := ⟨0, 1, 1, .empty⟩
  let page : Page := ⟨0, 1, 1, Toy.pagePng ""⟩
  let first : Render := ⟨source, none, ⟨1⟩⟩
  let second : Render := ⟨source, none, ⟨2⟩⟩
  have nothing : Run Step (.idle (.start 4)) [] _ := .nil
  have fetching := ((nothing.snoc (.starts _ (.render source))).snoc
    (.resumes [] (a := .cycle (.locating first)) rfl (.ok none))).snoc
    (.resumes [] (a := .cycle (.counting first none)) rfl (.ok 1))
  have overtaken := (fetching.snoc (.starts _ (.render source))).snoc
    (.resumes [] (a := .cycle (.fetchingAll first none)) rfl (.ok [empty]))
  have rendered := ((overtaken.snoc
    (.resumes [] (a := .cycle (.locating second)) rfl (.ok none))).snoc
    (.resumes [] (a := .cycle (.counting second none)) rfl (.ok 1))).snoc
    (.resumes [] (a := .cycle (.fetchingAll second none)) rfl (.ok [page]))
  obtain ⟨moves, s, run, came, shown⟩ : ∃ moves s, Run Step (.idle (.start 4)) moves s ∧
      deliveries moves = [⟨0, empty⟩, ⟨0, page⟩] ∧
      s.engine.state.pages = [⟨.of page.data 0, Toy.draw ""⟩] :=
    ⟨_, _, rendered, rfl, by decide +kernel⟩
  have other : Fingerprint.of empty.data ≠ Fingerprint.of page.data := by decide +kernel
  have distinct : NoCollision ((deliveries moves).map Delivery.page) := by
    intro p mem p' mem' same
    simp only [came, List.map_cons, List.map_nil, List.mem_cons, List.not_mem_nil,
      or_false] at mem mem'
    rcases mem with rfl | rfl <;> rcases mem' with rfl | rfl
    · rfl
    · exact absurd same other
    · exact absurd same.symm other
    · rfl
  have broken : decodeImage empty.data = .error .unknownFormat := by decide +kernel
  have fails : ∀ decoded, decodeImage empty.data ≠ .ok decoded := by simp [broken]
  have known : ⟨0, empty⟩ ∈ deliveries moves := came ▸ List.mem_cons_self ..
  have has : s.engine.HasImage (.of page.data 0) (Toy.draw "") := by
    simp [Engine.HasImage, shown]
  obtain ⟨-, decoded, unique⟩ := images_of_deliveries run
  exact ⟨moves, s, run, distinct, ⟨0, empty⟩, known, .of page.data 0, Toy.draw "", has,
    decoded has, fails, (unique distinct _ known has).2 fails⟩

end BusyEngine

end LivePreview.Preview
