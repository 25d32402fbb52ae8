import LivePreview.Page.Decoder
import LivePreview.Proofs.Cache.Recency
import LivePreview.Proofs.Preview.Agreement

/-!
# A full render keeps its own pages

The cache has room for twice the pages that are displayed.  A full render leaves its `n` pages
among the `n` most recent entries, and the splice of one page pushes them back by one place at
most.  So they are all still there after `n` more splices, and the next full render of the same
pages decodes none of them (`State.full_render_retained`).
-/

namespace LivePreview.Preview

/-! ## Pages loaded one after the other -/

section Loading

variable [ImageDecoder] {cache : RenderCache} {key : PageKey} {image : PageImage} {n : Nat}

theorem loadAll_capacity (cache : RenderCache) (pages : List Page) :
    (loadAll cache pages).2.capacity = cache.capacity := by
  induction pages generalizing cache with
  | nil => rfl
  | cons page pages inductionHypothesis =>
    have first := cache.load_capacity page
    simp only [loadAll]
    split
    · next f cache' failed => simpa only [failed] using first
    · next loaded cache' ok =>
      simp only [ok] at first
      have rest := inductionHypothesis cache'
      split <;> next after => simpa only [after, first] using rest

theorem loadAll_bounded (bounded : cache.Bounded) (pages : List Page) :
    (loadAll cache pages).2.Bounded := by
  induction pages generalizing cache with
  | nil => exact bounded
  | cons page pages inductionHypothesis =>
    have first := bounded.load page
    simp only [loadAll]
    split
    · next f cache' failed => simpa only [failed] using first
    · next loaded cache' ok =>
      simp only [ok] at first
      have rest := inductionHypothesis first
      split <;> next after => simpa only [after] using rest

theorem loadAll_cons_ok {page : Page} {pages : List Page} {slots : List Slot}
    {after : RenderCache} (ok : loadAll cache (page :: pages) = (.ok slots, after)) :
    ∃ loaded cache' others, cache.load page = (.ok loaded, cache') ∧
      loadAll cache' pages = (.ok others, after) ∧
      slots = ⟨loaded.key, loaded.image⟩ :: others := by
  simp only [loadAll] at ok
  split at ok
  · cases ok
  · next loaded cache' first =>
    split at ok
    · cases ok
    · next others cache'' rest =>
      obtain ⟨same, rfl⟩ := Prod.mk.inj ok
      obtain rfl := Except.ok.inj same
      exact ⟨loaded, cache', others, first, rest, rfl⟩

theorem loadAll_recalls (recalls : cache.Recalls n key image) {pages : List Page}
    (room : n + pages.length ≤ cache.capacity) {slots : List Slot} {after : RenderCache}
    (ok : loadAll cache pages = (.ok slots, after)) :
    after.Recalls (n + pages.length) key image := by
  induction pages generalizing cache n slots with
  | nil =>
    obtain ⟨-, rfl⟩ := Prod.mk.inj ok
    exact recalls
  | cons page pages inductionHypothesis =>
    obtain ⟨loaded, cache', others, first, rest, rfl⟩ := loadAll_cons_ok ok
    rw [List.length_cons, Nat.add_comm pages.length, ← Nat.add_assoc] at room ⊢
    have capacity := cache.load_capacity page
    have recalls' := recalls.load (by omega) page
    rw [first] at capacity recalls'
    exact inductionHypothesis recalls' (capacity ▸ room) rest

/-- Pages that are loaded are the most recent ones then. -/
theorem loadAll_recalls_own {pages : List Page} (room : pages.length ≤ cache.capacity)
    {slots : List Slot} {after : RenderCache} (ok : loadAll cache pages = (.ok slots, after)) :
    ∀ slot ∈ slots, after.Recalls pages.length slot.key slot.image := by
  induction pages generalizing cache slots with
  | nil =>
    obtain rfl := Except.ok.inj (congrArg Prod.fst ok)
    intro slot mem
    cases mem
  | cons page pages inductionHypothesis =>
    obtain ⟨loaded, cache', others, first, rest, rfl⟩ := loadAll_cons_ok ok
    rw [List.length_cons] at room ⊢
    have capacity : cache'.capacity = cache.capacity := by
      simpa only [first] using cache.load_capacity page
    have own : cache'.Recalls 1 loaded.key loaded.image := by
      simpa only [first] using cache.recalls_loaded (by omega) page (by rw [first])
    refine List.forall_mem_cons.mpr ⟨?_, fun slot mem => ?_⟩
    · exact Nat.add_comm 1 _ ▸ loadAll_recalls own (by omega) rest
    · exact (inductionHypothesis (by omega) rest slot mem).mono (Nat.le_succ _)

theorem keys_of_loadAll {pages : List Page} {slots : List Slot} {after : RenderCache}
    (ok : loadAll cache pages = (.ok slots, after)) :
    slots.map Slot.key = pages.map fun page => .of page.data page.index := by
  have any : cache.All fun _ _ => True := fun _ _ => trivial
  exact ((loadAll_all any fun _ _ _ _ => trivial).2 slots (by rw [ok])).1

theorem length_of_loadAll {pages : List Page} {slots : List Slot} {after : RenderCache}
    (ok : loadAll cache pages = (.ok slots, after)) : slots.length = pages.length := by
  simpa using congrArg List.length (keys_of_loadAll ok)

/-- Pages that are all remembered are loaded without a miss. -/
theorem loadAll_of_recalls {pages : List Page} {slots : List Slot}
    (keys : slots.map Slot.key = pages.map fun page => .of page.data page.index)
    (recalls : ∀ slot ∈ slots, cache.Recalls n slot.key slot.image) :
    ∃ after, loadAll cache pages = (.ok slots, after) ∧
      after.hits = cache.hits + pages.length ∧ after.misses = cache.misses := by
  induction pages generalizing cache n slots with
  | nil =>
    obtain rfl := List.map_eq_nil_iff.mp keys
    exact ⟨cache, rfl, rfl, rfl⟩
  | cons page pages inductionHypothesis =>
    obtain ⟨⟨_, image⟩, others, rfl, rfl, later⟩ := List.map_eq_cons_iff.mp keys
    obtain ⟨first, rest⟩ := List.forall_mem_cons.mp recalls
    have found := RenderCache.load_of_recalls first
    have touched : ∀ slot ∈ others, (cache.load page).2.Recalls (n + 1) slot.key slot.image :=
      fun slot mem => by rw [found]; exact Recent.Recalls.touch (rest slot mem) _
    obtain ⟨after, loads, hits, misses⟩ := inductionHypothesis later touched
    rw [found] at loads hits misses
    refine ⟨after, ?_, ?_, misses⟩
    · rw [loadAll, found]
      dsimp only
      rw [loads]
    · rw [hits, List.length_cons]
      dsimp only
      omega

end Loading

/-! ## Splices -/

section Splices

variable [ImageDecoder] {s : State} {key : PageKey} {image : PageImage} {n : Nat}

/-- Pages out of their places are refused.  Others are loaded once there is room for them, and
    are shown if all of them can be. -/
inductive SplicesAll (s : State) (pages : List Page) : SpliceResult → Prop
  | refused (f : Failure) : SplicesAll s pages ⟨.error f, s, []⟩
  | broken {f : Failure} {after : RenderCache} {lines : List Console.LogLine}
      (loads : loadAll (s.cache.ensureCapacity pages.length).1 pages = (.error f, after)) :
      SplicesAll s pages ⟨.error f, { s with cache := after }, lines⟩
  | shown {spliced : Spliced} {slots : List Slot} {after : RenderCache}
      {lines : List Console.LogLine} (placed : misplaced? pages = none)
      (loads : loadAll (s.cache.ensureCapacity pages.length).1 pages = (.ok slots, after)) :
      SplicesAll s pages ⟨.ok spliced, { s with cache := after, pages := slots }, lines⟩

theorem splicesAll (s : State) (pages : List Page) : SplicesAll s pages (spliceAll s pages) := by
  unfold spliceAll
  cases placed : misplaced? pages with
  | some misplaced => exact .refused _
  | none =>
    dsimp only
    split
    · next loads => exact .broken loads
    · next loads => exact .shown placed loads

theorem length_of_spliceAll {pages : List Page} {spliced : Spliced}
    (ok : (spliceAll s pages).result = .ok spliced) :
    (spliceAll s pages).state.pages.length = pages.length := by
  have splices := splicesAll s pages
  generalize spliceAll s pages = splice at ok splices ⊢
  cases splices with
  | refused => cases ok
  | broken => cases ok
  | shown placed loads => exact length_of_loadAll loads

theorem spliceOne_cache (s : State) (page : Page) :
    (spliceOne s page).state.cache = s.cache ∨
    (spliceOne s page).state.cache = (s.cache.load page).2 := by
  unfold spliceOne
  split
  · exact .inl rfl
  · split
    · next loads => exact .inr (by rw [loads])
    · next loads =>
      dsimp only
      split <;> exact .inr (by rw [loads])

theorem length_spliceOne (s : State) (page : Page) :
    (spliceOne s page).state.pages.length = s.pages.length := by
  unfold spliceOne
  split
  · rfl
  · split
    · rfl
    · dsimp only
      split
      · rfl
      · exact List.length_set

theorem spliceOne_capacity (s : State) (page : Page) :
    (spliceOne s page).state.cache.capacity = s.cache.capacity := by
  rcases spliceOne_cache s page with same | loads
  · rw [same]
  · rw [loads, RenderCache.load_capacity]

theorem spliceOne_recalls (recalls : s.cache.Recalls n key image) (room : n < s.cache.capacity)
    (page : Page) : (spliceOne s page).state.cache.Recalls (n + 1) key image := by
  rcases spliceOne_cache s page with same | loads
  · exact same ▸ Recent.Recalls.mono recalls (Nat.le_succ n)
  · exact loads ▸ recalls.load room page

theorem spliceAll_capacity_le (s : State) (pages : List Page) :
    s.cache.capacity ≤ (spliceAll s pages).state.cache.capacity := by
  have grown := loadAll_capacity (s.cache.ensureCapacity pages.length).1 pages
  rw [RenderCache.ensureCapacity_capacity] at grown
  have splices := splicesAll s pages
  generalize spliceAll s pages = splice at splices ⊢
  cases splices with
  | refused => exact Nat.le_refl _
  | broken loads | shown _ loads =>
    rw [loads] at grown
    exact grown ▸ Nat.le_max_left ..

end Splices

/-! ## Runs of splices -/

namespace Splice

theorem capacity_le [ImageDecoder] (splice : Splice) (s : State) :
    s.cache.capacity ≤ (splice.apply s).state.cache.capacity := by
  cases splice with
  | all pages => exact spliceAll_capacity_le s pages
  | one page => exact Nat.le_of_eq (spliceOne_capacity s page).symm

/-- Twice the pages can be counted by a machine word, as for every list in memory. -/
def Fits : Splice → Prop
  | .all pages => 2 * pages.length < Text.wordLimit
  | .one _ => True

end Splice

namespace State

section Runs

/-- The cache is within its capacity, and has room for twice the pages on display. -/
structure Roomy (s : State) : Prop where
  bounded : s.cache.Bounded
  twice : 2 * s.pages.length ≤ s.cache.capacity

theorem Roomy.empty (cacheCapacity : Nat) : (empty cacheCapacity).Roomy where
  bounded := Recent.Bounded.empty cacheCapacity
  twice := Nat.zero_le _

variable [ImageDecoder]

/-- The state after splices, of which some may have failed. -/
def spliced (s : State) (splices : List Splice) : State :=
  splices.foldl (fun s splice => (splice.apply s).state) s

theorem spliced_capacity_le (s : State) (splices : List Splice) :
    s.cache.capacity ≤ (s.spliced splices).cache.capacity := by
  induction splices generalizing s with
  | nil => exact Nat.le_refl _
  | cons splice splices inductionHypothesis =>
    exact Nat.le_trans (splice.capacity_le s) (inductionHypothesis _)

theorem Roomy.spliceAll {s : State} (roomy : s.Roomy) {pages : List Page}
    (fits : 2 * pages.length < Text.wordLimit) : (Preview.spliceAll s pages).state.Roomy := by
  have bounded := loadAll_bounded (roomy.bounded.ensureCapacity pages.length) pages
  have grown := loadAll_capacity (s.cache.ensureCapacity pages.length).1 pages
  rw [RenderCache.ensureCapacity_capacity, RenderCache.wanted_eq fits] at grown
  have splices := splicesAll s pages
  generalize Preview.spliceAll s pages = splice at splices ⊢
  cases splices with
  | refused => exact roomy
  | broken loads =>
    rw [loads] at bounded grown
    exact ⟨bounded, Nat.le_trans roomy.twice (grown ▸ Nat.le_max_left ..)⟩
  | shown placed loads =>
    have length := length_of_loadAll loads
    rw [loads] at bounded grown
    exact ⟨bounded, by rw [length]; exact grown ▸ Nat.le_max_right ..⟩

theorem Roomy.twice_of_ok {s : State} (roomy : s.Roomy) {pages : List Page}
    (fits : 2 * pages.length < Text.wordLimit) {spliced : Spliced}
    (ok : (Preview.spliceAll s pages).result = .ok spliced) :
    2 * pages.length ≤ (Preview.spliceAll s pages).state.cache.capacity := by
  have shown := (roomy.spliceAll fits).twice
  rwa [length_of_spliceAll ok] at shown

theorem Roomy.spliceOne {s : State} (roomy : s.Roomy) (page : Page) :
    (Preview.spliceOne s page).state.Roomy where
  bounded := by
    rcases spliceOne_cache s page with same | loads
    · exact same ▸ roomy.bounded
    · exact loads ▸ roomy.bounded.load page
  twice := by
    rw [length_spliceOne, spliceOne_capacity]
    exact roomy.twice

theorem Roomy.spliced {s : State} (roomy : s.Roomy) {splices : List Splice}
    (fit : ∀ splice ∈ splices, splice.Fits) : (s.spliced splices).Roomy := by
  induction splices generalizing s with
  | nil => exact roomy
  | cons splice splices inductionHypothesis =>
    obtain ⟨fits, rest⟩ := List.forall_mem_cons.mp fit
    refine inductionHypothesis (s := (splice.apply s).state) ?_ rest
    cases splice with
    | all pages => exact roomy.spliceAll fits
    | one page => exact roomy.spliceOne page

/-- Splices of single pages push what is remembered back by one place each. -/
theorem recalls_spliced {s : State} {key : PageKey} {image : PageImage} {n : Nat}
    (recalls : s.cache.Recalls n key image) {singles : List Page}
    (room : n + singles.length ≤ s.cache.capacity) :
    (s.spliced (singles.map .one)).cache.Recalls (n + singles.length) key image := by
  induction singles generalizing s n with
  | nil => exact recalls
  | cons page singles inductionHypothesis =>
    rw [List.length_cons, Nat.add_comm singles.length, ← Nat.add_assoc] at room ⊢
    refine inductionHypothesis (spliceOne_recalls recalls (by omega) page) ?_
    exact Nat.le_trans room (Nat.le_of_eq (spliceOne_capacity s page).symm)

/-- Pages in the order of their slots that are all remembered are spliced in without a miss. -/
theorem spliceAll_of_recalls {s : State} {pages : List Page} {slots : List Slot} {n : Nat}
    (placed : misplaced? pages = none)
    (keys : slots.map Slot.key = pages.map fun page => .of page.data page.index)
    (recalls : ∀ slot ∈ slots, s.cache.Recalls n slot.key slot.image) :
    (Preview.spliceAll s pages).result = .ok ⟨List.range pages.length, pages.length, 0⟩ ∧
    (Preview.spliceAll s pages).state.pages = slots := by
  obtain ⟨after, loads, hits, misses⟩ := loadAll_of_recalls keys fun slot mem =>
    (recalls slot mem).ensureCapacity pages.length
  simp [Preview.spliceAll, placed, loads, hits, misses]

/-- A full splice leaves its pages among the most recent entries, if it leaves room for them. -/
theorem spliceAll_recalls {s : State} {pages : List Page} {spliced : Spliced}
    (ok : (Preview.spliceAll s pages).result = .ok spliced)
    (room : 2 * pages.length ≤ (Preview.spliceAll s pages).state.cache.capacity) :
    misplaced? pages = none ∧
    ((Preview.spliceAll s pages).state.pages.map Slot.key =
      pages.map fun page => .of page.data page.index) ∧
    ∀ slot ∈ (Preview.spliceAll s pages).state.pages,
      (Preview.spliceAll s pages).state.cache.Recalls pages.length slot.key slot.image := by
  have capacity := loadAll_capacity (s.cache.ensureCapacity pages.length).1 pages
  have splices := splicesAll s pages
  generalize Preview.spliceAll s pages = splice at ok room splices ⊢
  cases splices with
  | refused => cases ok
  | broken => cases ok
  | shown placed loads =>
    refine ⟨placed, keys_of_loadAll loads, loadAll_recalls_own ?_ loads⟩
    rw [← capacity, loads]
    exact Nat.le_trans (Nat.le_mul_of_pos_left _ Nat.two_pos) room

/-- After splices of any pages, of which some may have failed: the cache holds no more than it
    has room for, has room for twice the pages on display, and never loses room.  If all pages
    are spliced in then, and after them no more single pages than these, they can be spliced in
    again without a miss, and the same slots are displayed. -/
theorem full_render_retained {cacheCapacity : Nat} {history : List Splice}
    (fit : ∀ splice ∈ history, splice.Fits) {s : State}
    (reached : s = (empty cacheCapacity).spliced history) :
    (s.cache.size ≤ s.cache.capacity ∧ 1 ≤ s.cache.capacity ∧
      2 * s.pages.length ≤ s.cache.capacity ∧
      ∀ later, s.cache.capacity ≤ (s.spliced later).cache.capacity) ∧
    ∀ pages, Splice.Fits (.all pages) → ∀ spliced,
      (Preview.spliceAll s pages).result = .ok spliced →
      ∀ singles : List Page, singles.length ≤ pages.length → ∀ between,
        between = (Preview.spliceAll s pages).state.spliced (singles.map .one) →
        (Preview.spliceAll between pages).result =
          .ok ⟨List.range pages.length, pages.length, 0⟩ ∧
        (Preview.spliceAll between pages).state.pages =
          (Preview.spliceAll s pages).state.pages := by
  have roomy : s.Roomy := reached ▸ (Roomy.empty cacheCapacity).spliced fit
  refine ⟨⟨roomy.bounded.size, roomy.bounded.room, roomy.twice, s.spliced_capacity_le⟩, ?_⟩
  rintro pages fits spliced ok singles few between rfl
  have twice : 2 * pages.length ≤ (Preview.spliceAll s pages).state.cache.capacity :=
    roomy.twice_of_ok fits ok
  -- all pages are among the first half of the entries, and no more others come before them
  obtain ⟨placed, keys, recent⟩ := spliceAll_recalls ok twice
  have room : pages.length + singles.length ≤
      (Preview.spliceAll s pages).state.cache.capacity := by omega
  exact spliceAll_of_recalls placed keys fun slot mem => recalls_spliced (recent slot mem) room

end Runs

attribute [local instance] pngDecoder

/-- A cache for one page, and a page that cannot be put into its slot.  Two pages are rendered,
    then another page takes the first slot and one that is no image is refused.  The two pages
    are still there. -/
theorem two_pages_retained : ∃ first second other broken : Page, ∃ s between,
    s = (empty 1).spliced [.one second] ∧
    between = (Preview.spliceAll s [first, second]).state.spliced [.one other, .one broken] ∧
    (Preview.spliceAll s [first, second]).result = .ok ⟨[0, 1], 0, 2⟩ ∧
    between.pages.map Slot.key = [.of other.data 0, .of second.data 1] ∧
    (Preview.spliceAll between [first, second]).result = .ok ⟨[0, 1], 2, 0⟩ ∧
    (Preview.spliceAll between [first, second]).state.pages =
      (Preview.spliceAll s [first, second]).state.pages := by
  let first : Page := ⟨0, 1, 1, Toy.pagePng ""⟩
  let second : Page := ⟨1, 1, 1, Toy.pagePng "x"⟩
  let other : Page := ⟨0, 1, 1, Toy.pagePng "x"⟩
  let broken : Page := ⟨1, 1, 1, .empty⟩
  obtain ⟨s, between, reached, follows, ok, displayed⟩ : ∃ s between,
      s = (empty 1).spliced [.one second] ∧
      between = (Preview.spliceAll s [first, second]).state.spliced
        ([other, broken].map .one) ∧
      (Preview.spliceAll s [first, second]).result = .ok ⟨[0, 1], 0, 2⟩ ∧
      between.pages.map Slot.key = [.of other.data 0, .of second.data 1] :=
    ⟨_, _, rfl, rfl, by decide +kernel⟩
  have fit : ∀ splice ∈ [Splice.one second], splice.Fits := by simp [Splice.Fits]
  obtain ⟨hits, same⟩ := (full_render_retained fit reached).2 [first, second]
    (by simp [Splice.Fits, Text.wordLimit]) _ ok [other, broken] (Nat.le_refl 2) between follows
  exact ⟨first, second, other, broken, s, between, reached, follows, ok, displayed, hits, same⟩

end State

end LivePreview.Preview
