import LivePreview.Page.Decoder
import LivePreview.Proofs.Preview.Images
import LivePreview.Proofs.Preview.Telling
import LivePreview.Toy.Layout

/-!
# The two splices agree

A splice of one page saves what a splice of all pages would load again.  The two go through
the cache in different ways, but without collisions the cache makes no difference: pages are
loaded as if they were decoded anew (`loadAll_eq`), whatever is kept and whatever was evicted.
So if only one page is new, to splice it in ends as to splice in all pages
(`Display.splices_agree`).
-/

namespace LivePreview.Preview

open RenderCache (DecodedFrom NoCollision decodeAnew)

section Slots

variable [ImageDecoder]

/-- The slot of a page that is decoded anew. -/
def slotOf (data : ByteArray) (place : Nat) : Except Failure Slot :=
  (decodeAnew data place).map fun loaded => ⟨loaded.key, loaded.image⟩

theorem key_of_slotOf {data : ByteArray} {place : Nat} {slot : Slot}
    (ok : slotOf data place = .ok slot) : slot.key = .of data place := by
  unfold slotOf at ok
  cases decoded : decodeAnew data place with
  | error f => simp [decoded, Except.map] at ok
  | ok loaded =>
    rw [decoded] at ok
    obtain rfl := Except.ok.inj ok
    exact (RenderCache.decodeAnew_ok decoded).1

def slotsOf (place : Nat) (payloads : List ByteArray) : Except Failure (List Slot) :=
  (payloads.zipIdx place).mapM fun (data, place) => slotOf data place

theorem slotsOf_cons (place : Nat) (data : ByteArray) (payloads : List ByteArray) :
    slotsOf place (data :: payloads) = (do
      let slot ← slotOf data place
      let slots ← slotsOf (place + 1) payloads
      pure (slot :: slots)) := by
  rw [slotsOf, List.zipIdx_cons, List.mapM_cons]
  rfl

theorem slotsOf_cons_ok {place : Nat} {data : ByteArray} {payloads : List ByteArray}
    {slots : List Slot} (ok : slotsOf place (data :: payloads) = .ok slots) :
    ∃ slot others, slotOf data place = .ok slot ∧ slotsOf (place + 1) payloads = .ok others ∧
      slots = slot :: others := by
  rw [slotsOf_cons] at ok
  cases first : slotOf data place with
  | error f => simp [first, bind, Except.bind] at ok
  | ok slot =>
    cases rest : slotsOf (place + 1) payloads with
    | error f => simp [first, rest, bind, Except.bind] at ok
    | ok others =>
      exact ⟨slot, others, rfl, rfl, by
        simpa [first, rest, bind, Except.bind, pure, Except.pure] using ok.symm⟩

theorem slotsOf_getElem? {place : Nat} {payloads : List ByteArray} {slots : List Slot}
    (ok : slotsOf place payloads = .ok slots) (i : Nat) :
    slots[i]?.map .ok = payloads[i]?.map (slotOf · (place + i)) := by
  induction payloads generalizing place slots i with
  | nil =>
    obtain rfl := Except.ok.inj ok
    rfl
  | cons data payloads inductionHypothesis =>
    obtain ⟨slot, others, first, rest, rfl⟩ := slotsOf_cons_ok ok
    cases i with
    | zero => simp [first]
    | succ i => simpa [Nat.add_right_comm, Nat.add_assoc] using inductionHypothesis rest i

/-- If the payloads can be decoded, one payload in their midst decides for all. -/
theorem slotsOf_set {place : Nat} {payloads : List ByteArray} {slots : List Slot}
    (ok : slotsOf place payloads = .ok slots) {i : Nat} (bound : i < payloads.length)
    (data : ByteArray) :
    slotsOf place (payloads.set i data) = (slotOf data (place + i)).map (slots.set i ·) := by
  induction payloads generalizing place slots i with
  | nil => cases bound
  | cons _ rest inductionHypothesis =>
    obtain ⟨slot, others, first, rest, rfl⟩ := slotsOf_cons_ok ok
    cases i with
    | zero =>
      rw [List.set_cons_zero, slotsOf_cons, rest]
      cases slotOf data place <;> rfl
    | succ i =>
      rw [List.set_cons_succ, slotsOf_cons, first,
        inductionHypothesis rest (Nat.lt_of_succ_lt_succ bound), Nat.add_right_comm, Nat.add_assoc]
      cases slotOf data (place + (i + 1)) <;> rfl

theorem slotsOf_placed {pages : List Page} (placed : misplaced? pages = none) :
    (pages.mapM fun page => slotOf page.data page.index) = slotsOf 0 (pages.map Page.data) := by
  have places : ∀ pair ∈ pages.zipIdx, pair.1.index = pair.2 := by
    simpa [misplaced?] using placed
  have same : (pages.zipIdx.map fun pair => slotOf pair.1.data pair.1.index) =
      pages.zipIdx.map fun pair => slotOf pair.1.data pair.2 :=
    List.map_congr_left fun pair mem => congrArg (slotOf pair.1.data) (places pair mem)
  have decoded := congrArg (List.mapM id) same
  rw [List.mapM_map, List.mapM_map] at decoded
  conv_lhs => rw [← List.zipIdx_map_fst 0 pages, List.mapM_map]
  rw [slotsOf, List.zipIdx_map, List.mapM_map]
  exact decoded

/-! ## Pages that are loaded -/

section Loading

variable {seen : List Page} {cache : RenderCache}

theorem loadAll_eq (distinct : NoCollision seen) (all : cache.All (DecodedFrom seen))
    {pages : List Page} (known : pages ⊆ seen) :
    (loadAll cache pages).1 = pages.mapM fun page => slotOf page.data page.index := by
  induction pages generalizing cache with
  | nil => rfl
  | cons page pages inductionHypothesis =>
    obtain ⟨first, others⟩ := List.cons_subset.mp known
    have anew := RenderCache.load_eq distinct all first
    have rest := inductionHypothesis (all.load (decodes_of_mem first)).1 others
    rw [List.mapM_cons, slotOf, ← anew, ← rest]
    simp only [loadAll]
    cases loads : cache.load page with
    | mk loaded cache' =>
      cases loaded with
      | error f => rfl
      | ok loaded =>
        dsimp only
        cases loadAll cache' pages with
        | mk slots cache'' => cases slots <;> rfl

end Loading

end Slots

/-! ## Splices -/

/-- How a splice of a state ends: with these slots, or with this failure and the slots as
    they were. -/
def SpliceResult.Ends (splice : SpliceResult) (s : State) : Except Failure (List Slot) → Prop
  | .ok slots => (∃ spliced, splice.result = .ok spliced) ∧ splice.state.pages = slots
  | .error f => splice.result = .error f ∧ splice.state.pages = s.pages

theorem SpliceResult.Ends.agree {splice splice' : SpliceResult} {s : State}
    {slots : Except Failure (List Slot)} (ends : splice.Ends s slots)
    (ends' : splice'.Ends s slots) :
    ((∃ spliced, splice.result = .ok spliced) ↔ ∃ spliced, splice'.result = .ok spliced) ∧
    splice.state.pages = splice'.state.pages ∧
    ∀ f, splice.result = .error f → splice'.result = .error f ∧
      splice.state.pages = s.pages ∧ splice'.state.pages = s.pages := by
  cases slots with
  | ok slots =>
    obtain ⟨⟨spliced, ok⟩, pages⟩ := ends
    obtain ⟨ok', pages'⟩ := ends'
    refine ⟨⟨fun _ => ok', fun _ => ⟨spliced, ok⟩⟩, pages.trans pages'.symm, fun f refused => ?_⟩
    rw [ok] at refused
    cases refused
  | error f =>
    obtain ⟨refused, pages⟩ := ends
    obtain ⟨refused', pages'⟩ := ends'
    refine ⟨?_, pages.trans pages'.symm, fun f' same => ⟨?_, pages, pages'⟩⟩
    · simp [refused, refused']
    · rw [refused', ← refused, same]

section Ends

variable [ImageDecoder] {seen : List Page} {s : State}

theorem spliceAll_ends (distinct : NoCollision seen) (all : s.cache.All (DecodedFrom seen))
    {pages : List Page} (placed : misplaced? pages = none) (known : pages ⊆ seen) :
    (spliceAll s pages).Ends s (slotsOf 0 (pages.map Page.data)) := by
  rw [← slotsOf_placed placed, ← loadAll_eq distinct (all.ensureCapacity pages.length) known]
  simp only [spliceAll, placed]
  cases loadAll (s.cache.ensureCapacity pages.length).1 pages with
  | mk slots after =>
    cases slots with
    | error f => exact ⟨rfl, rfl⟩
    | ok slots => exact ⟨⟨_, rfl⟩, rfl⟩

theorem spliceOne_ends (distinct : NoCollision seen) (all : s.cache.All (DecodedFrom seen))
    {page : Page} (known : page ∈ seen) {old : Slot} (shown : s.pages[page.index]? = some old)
    {before : Page} (mem : before ∈ seen)
    (decoded : slotOf before.data page.index = .ok old) :
    (spliceOne s page).Ends s
      ((slotOf page.data page.index).map (s.pages.set page.index ·)) := by
  have loads := RenderCache.load_eq distinct all known
  simp only [spliceOne, shown]
  cases load : s.cache.load page with
  | mk loaded cache =>
    simp only [load] at loads
    rw [slotOf, ← loads]
    cases loaded with
    | error f => exact ⟨rfl, rfl⟩
    | ok loaded =>
      have key : loaded.key = .of page.data page.index := (RenderCache.decodeAnew_ok loads.symm).1
      dsimp only
      split
      · next same =>
        -- the slot was decoded from the same bytes, so to leave it is to replace it
        have keys := (key_of_slotOf decoded).symm.trans (same.trans key)
        have bytes := distinct before mem _ known (congrArg PageKey.fingerprint keys)
        rw [bytes, slotOf, ← loads] at decoded
        obtain rfl : ⟨loaded.key, loaded.image⟩ = old := Except.ok.inj decoded
        obtain ⟨bound, slot⟩ := List.getElem?_eq_some_iff.mp shown
        refine ⟨⟨_, rfl⟩, ?_⟩
        show s.pages = s.pages.set page.index ⟨loaded.key, loaded.image⟩
        rw [← slot, List.set_getElem_self]
      · exact ⟨⟨_, rfl⟩, rfl⟩

end Ends

/-! ## Displays -/

inductive Splice where
  | all (pages : List Page)
  | one (page : Page)

namespace Splice

def apply [ImageDecoder] (s : State) : Splice → SpliceResult
  | .all pages => spliceAll s pages
  | .one page => spliceOne s page

def pages : Splice → List Page
  | .all pages => pages
  | .one page => [page]

/-- The payloads on display after a splice, if these were before. -/
def payloads (shown : List ByteArray) : Splice → List ByteArray
  | .all pages => pages.map Page.data
  | .one page => shown.set page.index page.data

end Splice

/-- A state with the payloads of the pages that it displays. -/
structure Display where
  state : State
  payloads : List ByteArray

namespace Display

def fresh (cacheCapacity : Nat) : Display :=
  ⟨.empty cacheCapacity, []⟩

section Splices

variable [ImageDecoder]

def splice (d : Display) (splice : Splice) : Display where
  state := (splice.apply d.state).state
  payloads :=
    match (splice.apply d.state).result with
    | .ok _ => splice.payloads d.payloads
    | .error _ => d.payloads

def after (cacheCapacity : Nat) (history : List Splice) : Display :=
  history.foldl splice (.fresh cacheCapacity)

/-- The slots are those of the payloads, and what is kept is decoded from what was seen. -/
structure Sound (seen : List Page) (d : Display) : Prop where
  cache : d.state.cache.All (DecodedFrom seen)
  slots : slotsOf 0 d.payloads = .ok d.state.pages
  known : ∀ data ∈ d.payloads, ∃ page ∈ seen, page.data = data

variable {seen : List Page} {d : Display}

theorem Sound.fresh (cacheCapacity : Nat) : Sound seen (.fresh cacheCapacity) where
  cache := .empty _
  slots := rfl
  known _ mem := nomatch mem

/-- Without collisions, the splice of one page ends as if the page were decoded anew. -/
theorem Sound.spliceOne_ends (sound : Sound seen d) (distinct : NoCollision seen) {page : Page}
    (known : page ∈ seen) (bound : page.index < d.payloads.length) :
    (spliceOne d.state page).Ends d.state (slotsOf 0 (d.payloads.set page.index page.data)) := by
  have slot := slotsOf_getElem? sound.slots page.index
  rw [List.getElem?_eq_getElem bound, Nat.zero_add] at slot
  obtain ⟨old, shown, decoded⟩ := Option.map_eq_some_iff.mp slot
  obtain ⟨before, mem, same⟩ := sound.known _ (List.getElem_mem bound)
  rw [slotsOf_set sound.slots bound, Nat.zero_add]
  exact Preview.spliceOne_ends distinct sound.cache known shown mem (same ▸ decoded.symm)

theorem Sound.of_refused (sound : Sound seen d) {splice : Splice}
    (cache : (splice.apply d.state).state.cache.All (DecodedFrom seen)) {f : Failure}
    (refused : (splice.apply d.state).result = .error f)
    (pages : (splice.apply d.state).state.pages = d.state.pages) :
    Sound seen (d.splice splice) where
  cache := cache
  slots := by simpa [Display.splice, refused, pages] using sound.slots
  known := by simpa [Display.splice, refused] using sound.known

theorem Sound.of_untouched (sound : Sound seen d) {splice : Splice} {f : Failure}
    (untouched : splice.apply d.state = ⟨.error f, d.state, []⟩) :
    Sound seen (d.splice splice) := by
  refine sound.of_refused (f := f) ?_ ?_ ?_ <;> rw [untouched]
  exact sound.cache

theorem Sound.of_ends (sound : Sound seen d) {splice : Splice}
    (cache : (splice.apply d.state).state.cache.All (DecodedFrom seen))
    (ends : (splice.apply d.state).Ends d.state (slotsOf 0 (splice.payloads d.payloads)))
    (known : ∀ data ∈ splice.payloads d.payloads, ∃ page ∈ seen, page.data = data) :
    Sound seen (d.splice splice) := by
  cases decoded : slotsOf 0 (splice.payloads d.payloads) with
  | error f =>
    rw [decoded] at ends
    exact sound.of_refused cache ends.1 ends.2
  | ok slots =>
    rw [decoded] at ends
    obtain ⟨⟨spliced, ok⟩, pages⟩ := ends
    have shown : (d.splice splice).payloads = splice.payloads d.payloads := by
      simp [Display.splice, ok]
    refine ⟨cache, ?_, shown ▸ known⟩
    rw [shown, decoded]
    exact congrArg Except.ok pages.symm

theorem Sound.splice_all (sound : Sound seen d) (distinct : NoCollision seen) {pages : List Page}
    (known : pages ⊆ seen) : Sound seen (d.splice (.all pages)) := by
  cases placed : misplaced? pages with
  | some misplaced => exact sound.of_untouched (by rw [Splice.apply, spliceAll, placed])
  | none =>
    have decodes : ∀ page ∈ pages, Decodes (DecodedFrom seen) page := fun page mem =>
      decodes_of_mem (known mem)
    refine sound.of_ends (spliceAll_shows sound.cache decodes).1
      (spliceAll_ends distinct sound.cache placed known) fun data shown => ?_
    obtain ⟨page, mem, rfl⟩ := List.mem_map.mp shown
    exact ⟨page, known mem, rfl⟩

theorem Sound.splice_one (sound : Sound seen d) (distinct : NoCollision seen) {page : Page}
    (known : page ∈ seen) : Sound seen (d.splice (.one page)) := by
  have cache := (spliceOne_shows sound.cache (decodes_of_mem known)).1
  by_cases bound : page.index < d.payloads.length
  · refine sound.of_ends cache (sound.spliceOne_ends distinct known bound) fun data shown => ?_
    rcases List.mem_or_eq_of_mem_set shown with kept | rfl
    · exact sound.known data kept
    · exact ⟨_, known, rfl⟩
  · have nothing := slotsOf_getElem? sound.slots page.index
    rw [List.getElem?_eq_none (Nat.not_lt.mp bound)] at nothing
    exact sound.of_untouched
      (by rw [Splice.apply, spliceOne, Option.map_eq_none_iff.mp nothing])

/-- What is displayed after splices are the slots of the payloads. -/
theorem Sound.after (distinct : NoCollision seen) {cacheCapacity : Nat} {history : List Splice}
    (known : ∀ splice ∈ history, splice.pages ⊆ seen) :
    Sound seen (.after cacheCapacity history) := by
  have start : Sound seen (.fresh cacheCapacity) := .fresh cacheCapacity
  unfold Display.after
  generalize Display.fresh cacheCapacity = d at start
  induction history generalizing d with
  | nil => exact start
  | cons splice history inductionHypothesis =>
    obtain ⟨first, others⟩ := List.forall_mem_cons.mp known
    refine inductionHypothesis others _ ?_
    cases splice with
    | all pages => exact start.splice_all distinct first
    | one page => exact start.splice_one distinct (first (List.mem_singleton_self _))

/-- After splices of all kinds, of which some may have failed: if the payload in one place is
    exchanged for another, to splice in this page succeeds or fails as to splice in all pages.
    The slots are then the same, with keys and images, and are those before if the splices
    fail. -/
theorem splices_agree {cacheCapacity : Nat} {history : List Splice} {d : Display}
    (reached : d = .after cacheCapacity history) {pages : List Page}
    (distinct : NoCollision (history.flatMap Splice.pages ++ pages))
    (length : pages.length = d.payloads.length)
    (placed : ∀ (j : Nat) (page : Page), pages[j]? = some page → page.index = j)
    {i : Nat} {page : Page} (new : pages[i]? = some page)
    (others : ∀ j, j ≠ i → pages[j]?.map Page.data = d.payloads[j]?) :
    ((∃ spliced, (spliceOne d.state page).result = .ok spliced) ↔
      ∃ spliced, (spliceAll d.state pages).result = .ok spliced) ∧
    (spliceOne d.state page).state.pages = (spliceAll d.state pages).state.pages ∧
    ∀ f, (spliceOne d.state page).result = .error f →
      (spliceAll d.state pages).result = .error f ∧
      (spliceOne d.state page).state.pages = d.state.pages ∧
      (spliceAll d.state pages).state.pages = d.state.pages := by
  obtain rfl := placed i page new
  have sound : Sound _ d := reached ▸ Sound.after distinct fun splice mem page own =>
    List.mem_append_left _ (List.mem_flatMap_of_mem mem own)
  have known : pages ⊆ history.flatMap Splice.pages ++ pages := List.subset_append_right ..
  have inPlace : misplaced? pages = none := by
    refine List.find?_eq_none.mpr fun (page, j) mem => ?_
    simpa using placed j page (List.mem_zipIdx_iff_getElem?.mp mem)
  have bound : page.index < d.payloads.length :=
    length ▸ (List.getElem?_eq_some_iff.mp new).1
  -- one splice ends with the payloads of all pages, the other one with the payload exchanged
  have exchanged : pages.map Page.data = d.payloads.set page.index page.data := by
    refine List.ext_getElem? fun j => ?_
    rw [List.getElem?_map]
    by_cases same : j = page.index
    · rw [same, new, List.getElem?_set_self bound, Option.map_some]
    · rw [others j same, List.getElem?_set_ne (Ne.symm same)]
  have all := spliceAll_ends distinct sound.cache inPlace known
  rw [exchanged] at all
  exact (sound.spliceOne_ends distinct (known (List.mem_of_getElem? new)) bound).agree all

end Splices

attribute [local instance] pngDecoder

/-- Two empty pages are displayed, and the second one gets a line.  To splice in this page
    changes its slot, and leaves the slots that a splice of both leaves. -/
theorem second_page_exchanged : ∃ (d : Display) (first page : Page),
    d = .after 1 [.all [first, ⟨1, 1, 1, Toy.pagePng ""⟩]] ∧ page.data = Toy.pagePng "x" ∧
    (spliceOne d.state page).result = .ok ⟨[1], 0, 1⟩ ∧
    (∃ spliced, (spliceAll d.state [first, page]).result = .ok spliced) ∧
    (spliceOne d.state page).state.pages = (spliceAll d.state [first, page]).state.pages := by
  let empty (index : Nat) : Page := ⟨index, 1, 1, Toy.pagePng ""⟩
  let page : Page := ⟨1, 1, 1, Toy.pagePng "x"⟩
  obtain ⟨d, reached, payloads, changed, other⟩ : ∃ d : Display,
      d = .after 1 [.all [empty 0, empty 1]] ∧ d.payloads = [(empty 0).data, (empty 1).data] ∧
      (spliceOne d.state page).result = .ok ⟨[1], 0, 1⟩ ∧
      Fingerprint.of (empty 0).data ≠ Fingerprint.of page.data :=
    ⟨_, rfl, by decide +kernel⟩
  have distinct : NoCollision ([.all [empty 0, empty 1]].flatMap Splice.pages ++
      [empty 0, page]) := by
    have either : ∀ p ∈ [.all [empty 0, empty 1]].flatMap Splice.pages ++ [empty 0, page],
        p.data = (empty 0).data ∨ p.data = page.data := by
      simp [Splice.pages, empty]
    intro p mem p' mem' same
    rcases either p mem with old | new <;> rcases either p' mem' with old' | new'
    · exact old.trans old'.symm
    · exact absurd (by rw [← old, ← new', same]) other
    · exact absurd (by rw [← old', ← new, same]) other
    · exact new.trans new'.symm
  have placed (j : Nat) (q : Page) (shown : [empty 0, page][j]? = some q) : q.index = j := by
    rcases j with _ | _ | j
    · exact Option.some.inj shown ▸ rfl
    · exact Option.some.inj shown ▸ rfl
    · cases shown
  have others (j : Nat) (other : j ≠ 1) :
      [empty 0, page][j]?.map Page.data = d.payloads[j]? := by
    rw [payloads]
    rcases j with _ | _ | j
    · rfl
    · exact absurd rfl other
    · rfl
  obtain ⟨succeeds, same, -⟩ := splices_agree reached distinct (by rw [payloads]; rfl) placed
    (rfl : [empty 0, page][1]? = some page) others
  exact ⟨d, empty 0, page, reached, rfl, changed, succeeds.mp ⟨_, changed⟩, same⟩

end Display

end LivePreview.Preview
