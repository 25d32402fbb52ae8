import LivePreview.Page.Decoder
import LivePreview.Proofs.Preview.Courses
import LivePreview.Proofs.Preview.Retention

/-!
# Splices in range

A cycle that waits for one page has chosen it among the slots on display, and it is spliced in
later.  In between only a reset or another splice could change the number of slots.  A reset
overtakes the cycle, and a splice takes the latest render ticket, which the cycle holds itself
unless it was overtaken.  So a page that is spliced in finds its slot, and such a splice fails
only if the page is no image (`BusyEngine.splices_in_range`).
-/

namespace LivePreview

/-! ## Counters of loads -/

namespace RenderCache

/-- `cache.Counts n after`: no counter went back, and together they have counted `n` loads. -/
structure Counts (cache : RenderCache) (n : Nat) (after : RenderCache) : Prop where
  hits : cache.hits ≤ after.hits
  misses : cache.misses ≤ after.misses
  loads : after.hits + after.misses = cache.hits + cache.misses + n

variable {cache cache' after : RenderCache} {page : Page}

theorem Counts.refl (cache : RenderCache) : cache.Counts 0 cache :=
  ⟨Nat.le_refl _, Nat.le_refl _, rfl⟩

theorem Counts.trans {m n : Nat} (first : cache.Counts m cache') (next : cache'.Counts n after) :
    cache.Counts (m + n) after :=
  ⟨Nat.le_trans first.hits next.hits, Nat.le_trans first.misses next.misses, by
    rw [next.loads, first.loads, Nat.add_assoc]⟩

theorem counts_ensureCapacity (cache : RenderCache) (displayed : Nat) :
    cache.Counts 0 (cache.ensureCapacity displayed).1 := by
  unfold ensureCapacity
  split <;> exact ⟨Nat.le_refl _, Nat.le_refl _, rfl⟩

variable [ImageDecoder]

theorem counts_of_load {loaded : Loaded} (ok : cache.load page = (.ok loaded, after)) :
    cache.Counts 1 after := by
  have loads := cache.load_loads page
  rw [ok] at loads
  cases loads with
  | hit => exact ⟨Nat.le_succ _, Nat.le_refl _, Nat.add_right_comm ..⟩
  | miss => exact ⟨Nat.le_refl _, Nat.le_succ _, rfl⟩

theorem load_refused {f : Failure} (refused : cache.load page = (.error f, after)) :
    ∃ message, f = .decode page.index message := by
  unfold load at refused
  simp only [get] at refused
  split at refused
  · cases refused
  · split at refused
    · exact ⟨_, (Except.error.inj (congrArg Prod.fst refused)).symm⟩
    · cases refused

end RenderCache

namespace Preview

theorem Plan.bound_of_single {displayed count index : Nat} {cursor : Option Position}
    (single : Plan.choose displayed count cursor = .single index) : index < displayed := by
  unfold Plan.choose at single
  split at single
  · cases single
  · next same =>
    split at single
    · split at single
      · next bound =>
        obtain rfl := Plan.single.inj single
        exact not_not.mp same ▸ bound
      · cases single
    · cases single

theorem Engine.endRender_display (e : Engine) (cursor : Option Position) (plan : Plan)
    (splice : SpliceResult) :
    (e.endRender cursor plan splice).1.display = (splice.state.pages, splice.state.cache) := by
  unfold Engine.endRender
  split
  · exact Engine.fail_display ..
  · exact Engine.afterSplice_display ..

/-- The counts of a splice are by how much the counters of the cache grow. -/
def Spliced.Counts (spliced : Spliced) (before after : RenderCache) (pages : Nat) : Prop :=
  after.hits = before.hits + spliced.hits ∧ after.misses = before.misses + spliced.misses ∧
    spliced.hits + spliced.misses = pages

theorem Spliced.counts_of_differences {cache after : RenderCache} {pages : Nat}
    (counts : cache.Counts pages after) (changed : List Nat) :
    (⟨changed, after.hits - cache.hits, after.misses - cache.misses⟩ : Spliced).Counts
      cache after pages := by
  obtain ⟨hits, misses, loads⟩ := counts
  refine ⟨?_, ?_, ?_⟩ <;> dsimp only <;> omega

section Splices

variable [ImageDecoder]

theorem loadAll_counts {cache after : RenderCache} {pages : List Page} {slots : List Slot}
    (ok : loadAll cache pages = (.ok slots, after)) : cache.Counts pages.length after := by
  induction pages generalizing cache slots with
  | nil =>
    obtain ⟨-, rfl⟩ := Prod.mk.inj ok
    exact .refl cache
  | cons page pages inductionHypothesis =>
    obtain ⟨loaded, cache', others, first, rest, -⟩ := loadAll_cons_ok ok
    rw [List.length_cons, Nat.add_comm]
    exact (RenderCache.counts_of_load first).trans (inductionHypothesis rest)

theorem spliceAll_counts {s : State} {pages : List Page} {spliced : Spliced}
    (ok : (spliceAll s pages).result = .ok spliced) :
    spliced.Counts s.cache (spliceAll s pages).state.cache pages.length := by
  have room := s.cache.counts_ensureCapacity pages.length
  revert ok
  unfold spliceAll
  split
  · exact fun ok => nomatch ok
  · dsimp only
    split
    · exact fun ok => nomatch ok
    · next slots after loads =>
      intro ok
      obtain rfl := Except.ok.inj ok
      obtain ⟨hits, misses, both⟩ := room
      obtain ⟨hits', misses', both'⟩ := loadAll_counts loads
      refine ⟨?_, ?_, ?_⟩ <;> dsimp only <;> omega

/-- A page without a slot is refused.  Another one is loaded, and is shown if it can be. -/
inductive SplicesOne (s : State) (page : Page) : SpliceResult → Prop
  | refused (f : Failure) (outside : s.pages.length ≤ page.index) :
      SplicesOne s page ⟨.error f, s, []⟩
  | broken {f : Failure} {after : RenderCache} (loads : s.cache.load page = (.error f, after)) :
      SplicesOne s page ⟨.error f, { s with cache := after }, []⟩
  | shown {loaded : RenderCache.Loaded} {after : RenderCache}
      (loads : s.cache.load page = (.ok loaded, after)) (changed : List Nat) (slots : List Slot) :
      SplicesOne s page
        ⟨.ok ⟨changed, after.hits - s.cache.hits, after.misses - s.cache.misses⟩,
          { s with cache := after, pages := slots }, []⟩

theorem splicesOne (s : State) (page : Page) : SplicesOne s page (spliceOne s page) := by
  unfold spliceOne
  split
  · next missing => exact .refused _ (List.getElem?_eq_none_iff.mp missing)
  · split
    · next loads => exact .broken loads
    · next loads =>
      dsimp only
      split
      · exact .shown loads [] s.pages
      · exact .shown loads [page.index] _

theorem spliceOne_counts {s : State} {page : Page} {spliced : Spliced}
    (ok : (spliceOne s page).result = .ok spliced) :
    spliced.Counts s.cache (spliceOne s page).state.cache 1 := by
  have splices := splicesOne s page
  generalize spliceOne s page = splice at ok splices ⊢
  cases splices with
  | refused => cases ok
  | broken => cases ok
  | shown loads changed =>
    obtain rfl := Except.ok.inj ok
    exact Spliced.counts_of_differences (RenderCache.counts_of_load loads) changed

/-- A page with a slot is refused only if it is no image. -/
theorem spliceOne_refused_in_range {s : State} {page : Page}
    (inRange : page.index < s.pages.length) {f : Failure}
    (refused : (spliceOne s page).result = .error f) :
    ∃ message, f = .decode page.index message := by
  have splices := splicesOne s page
  generalize spliceOne s page = splice at refused splices
  cases splices with
  | refused _ outside => exact absurd inRange (Nat.not_lt.mpr outside)
  | broken loads =>
    obtain rfl := Except.error.inj refused
    exact RenderCache.load_refused loads
  | shown => cases refused

/-! ## Who changes the page list -/

/-- An operation changes what is displayed only as a fetch with the latest render ticket. -/
theorem Activity.resume_display (a : Activity) (e : Engine) (reply : a.call.Reply) :
    (a.resume e reply).1.display = e.display ∨
      ∃ c r, a = .cycle c ∧ c.fetches? = some r ∧ r.ticket.number = e.counters.renders.latest := by
  by_cases current : a.IsCurrent e.counters
  · cases a with
    | click click => exact .inl (click.resume_display e reply)
    | cycle c =>
      have displays := c.resume_displays e reply
      show (c.resume e reply).1.display = e.display ∨ _
      generalize c.resume e reply = step at displays ⊢
      cases displays with
      | leaves display => exact .inl display
      | splices splices =>
        have latest (r : Render) (fetches : c.render? = some r) :
            r.ticket.number = e.counters.renders.latest :=
          have holds : r.ticket ∈ (Activity.cycle c).renderTicket? := by
            simp [renderTicket?, render?, fetches]
          Sequence.isCurrent_iff.mp (current.2.1 r.ticket holds)
        cases splices with
        | all r => exact .inr ⟨_, r, rfl, rfl, latest r rfl⟩
        | one r => exact .inr ⟨_, r, rfl, rfl, latest r rfl⟩
  · obtain ⟨lines, dropped⟩ := a.resume_stale current reply
    rw [dropped]
    exact .inl rfl

theorem Cycle.Splices.display {e : Engine} {c : Cycle} {reply : c.call.Reply} {plan : Plan}
    {splice : SpliceResult} (splices : Splices e c reply plan splice)
    (current : c.isStale e = false) :
    (c.resume e reply).1.display = (splice.state.pages, splice.state.cache) := by
  cases splices with
  | all r cursor pages =>
    simpa [Cycle.resume, current, Engine.afterFetchAll] using
      e.endRender_display cursor .full (spliceAll e.state pages)
  | one r cursor page =>
    simpa [Cycle.resume, current, Engine.afterFetchPage] using
      e.endRender_display cursor (.single page.index) (spliceOne e.state page)

theorem Cycle.Splices.counts {e : Engine} {c : Cycle} {reply : c.call.Reply} {plan : Plan}
    {splice : SpliceResult} (splices : Splices e c reply plan splice) {spliced : Spliced}
    (ok : splice.result = .ok spliced) :
    spliced.Counts e.state.cache splice.state.cache (delivered c.call reply).length := by
  cases splices with
  | all => exact spliceAll_counts ok
  | one => exact spliceOne_counts ok

end Splices

namespace BusyEngine

section Runs

variable {engine : Engine} {s t : BusyEngine} {act : Act} {moves : List (Move BusyEngine Act)}

theorem bound_of_succeeds {e : Engine} {c : Cycle} {reply : c.call.Reply} {k : Counters}
    {r : Render} {cursor : Option Position} {index : Nat}
    (succeeds : c.Succeeds e reply (.fetchingPage r cursor index) k) :
    index < e.state.pages.length ∧ c.fetches? = none := by
  cases succeeds with
  | fetchingPage _ _ _ _ single => exact ⟨Plan.bound_of_single single, rfl⟩

variable [ImageDecoder]

/-- A cycle that waits for one page, and is not overtaken, waits for one that has a slot. -/
def InRange (s : BusyEngine) : Prop :=
  ∀ r cursor index, .cycle (.fetchingPage r cursor index) ∈ s.waiting →
    r.ticket.number = s.engine.counters.renders.latest → index < s.engine.state.pages.length

/-- The stage that follows a count waits for a page that has a slot. -/
theorem bound_of_next {e : Engine} {a : Activity} {reply : a.call.Reply} {r : Render}
    {cursor : Option Position} {index : Nat}
    (next : .cycle (.fetchingPage r cursor index) ∈ (a.resume e reply).2.next) :
    index < (a.resume e reply).1.state.pages.length := by
  have advances := a.resume_advances e reply
  have display := a.resume_display e reply
  generalize a.resume e reply = step at next advances display ⊢
  cases advances with
  | ends => cases next
  | waits current succeeds =>
    obtain rfl := Activity.cycle.inj (List.mem_singleton.mp next)
    obtain ⟨bound, other⟩ := bound_of_succeeds succeeds
    rcases display with same | ⟨c, r', counts, fetches, -⟩
    · exact congrArg (fun display => display.1.length) same ▸ bound
    · obtain rfl := Activity.cycle.inj counts
      cases other.symm.trans fetches

/-- While a page is fetched for the latest render, no other operation splices anything. -/
theorem display_beside (run : Run Step (.idle engine) moves s) {first rest : List Activity}
    {a : Activity} (waiting : s.waiting = first ++ a :: rest) {r : Render}
    {cursor : Option Position} {index : Nat}
    (mem : .cycle (.fetchingPage r cursor index) ∈ first ++ rest)
    (latest : r.ticket.number = s.engine.counters.renders.latest) (reply : a.call.Reply) :
    (a.resume s.engine reply).1.display = s.engine.display := by
  rcases a.resume_display s.engine reply with same | ⟨c, r', rfl, fetches, latest'⟩
  · exact same
  · -- a splice would be that of another cycle with the same ticket
    have ticket : r'.ticket = r.ticket := congrArg Ticket.mk (latest'.trans latest.symm)
    have holds : r'.ticket ∈ Ledger.fetches.held (.cycle c) := by
      cases c <;> cases fetches <;> rfl
    exact absurd (congrArg some ticket.symm)
      ((Ledger.sound_of_run (l := Ledger.fetches) run).alone waiting holds mem)

theorem InRange.step (run : Run Step (.idle engine) moves s) (inRange : s.InRange)
    (step : Step s act t) : t.InRange := by
  have before := step.before.renders
  have earlier {r : Render} {cursor : Option Position} {index : Nat}
      (waits : .cycle (.fetchingPage r cursor index) ∈ s.waiting)
      (latest : r.ticket.number = t.engine.counters.renders.latest) :
      r.ticket.number = s.engine.counters.renders.latest :=
    Nat.le_antisymm ((isIssued_of_run run waits).2.1 r.ticket rfl) (latest ▸ before)
  intro r cursor index waits latest
  cases step with
  | starts demand =>
    rcases List.mem_append.mp waits with waits | started
    · have same := demand.start_display s.engine
      exact congrArg (fun display => display.1.length) same ▸
        inRange r cursor index waits (earlier waits latest)
    · have new := List.mem_singleton.mp started
      cases demand <;> cases new
  | resets =>
    have old := earlier waits latest
    rw [Engine.reset_counters] at latest
    exact absurd (latest.symm.trans old) (Nat.succ_ne_self _)
  | @resumes first rest a waiting reply =>
    rcases beside_or_next waits with mem | next
    · have other := mem_of_beside waiting mem
      have old := earlier other latest
      have same := display_beside run waiting mem old reply
      exact congrArg (fun display => display.1.length) same ▸ inRange r cursor index other old
    · exact bound_of_next next

theorem inRange_of_run (run : Run Step (.idle engine) moves s) : s.InRange :=
  run.keepsAlong (P := fun _ s => s.InRange) (fun _ _ _ waits => nomatch waits)
    fun run inRange step => inRange.step run step

/-- A single page that is spliced in has a slot, so the splice fails only if the page is no
    image.  The counts of a splice are those of the pages that were delivered. -/
theorem splices_in_range (run : Run Step (.idle engine) moves s) {u v : BusyEngine} {c : Cycle}
    {reply : c.call.Reply} {progress : Progress Activity Ending}
    (mem : ⟨u, .resumes (.cycle c) reply progress, v⟩ ∈ moves)
    (current : c.isStale u.engine = false) {plan : Plan} {splice : SpliceResult}
    (splices : c.Splices u.engine reply plan splice) :
    v.engine.display = (splice.state.pages, splice.state.cache) ∧
    (∀ index, plan = .single index → index < u.engine.state.pages.length ∧
      ∀ f, splice.result = .error f → ∃ message, f = .decode index message) ∧
    ∀ spliced, splice.result = .ok spliced →
      spliced.Counts u.engine.state.cache v.engine.state.cache (delivered c.call reply).length := by
  obtain ⟨first, rest, cut⟩ := List.append_of_mem mem
  obtain ⟨begun, step, -⟩ := run.around cut
  obtain ⟨before, after, waits, -, after_eq⟩ := step.of_resumes
  have display : v.engine.display = (splice.state.pages, splice.state.cache) :=
    congrArg (fun s => s.engine.display) after_eq ▸ splices.display current
  refine ⟨display, fun index single => ?_, fun spliced ok => ?_⟩
  · cases splices with
    | all => cases single
    | one r cursor page =>
      obtain rfl := Plan.single.inj single
      have inTime := (Cycle.isStale_iff _ _).mp current
      have latest := Sequence.isCurrent_iff.mp (inTime.2.1 r.ticket rfl)
      have bound := inRange_of_run begun r cursor page.index
        (waits ▸ List.mem_append_right before (.head after)) latest
      exact ⟨bound, fun f refused => spliceOne_refused_in_range bound refused⟩
  · have cache : v.engine.state.cache = splice.state.cache := congrArg Prod.snd display
    exact cache ▸ splices.counts ok

end Runs

attribute [local instance] pngDecoder

/-- Two empty pages are displayed, the cursor is on the second one, and this page is no image
    when it is fetched.  It has a slot, and so its splice fails as it cannot be decoded. -/
theorem broken_page_has_slot : ∃ engine moves s, ∃ u v : BusyEngine, ∃ c reply progress splice,
    Run Step (.idle engine) moves s ∧
    ⟨u, .resumes (.cycle c) reply progress, v⟩ ∈ moves ∧ c.isStale u.engine = false ∧
    c.Splices u.engine reply (.single 1) splice ∧ 1 < u.engine.state.pages.length ∧
    ∃ message, splice.result = .error (.decode 1 message) := by
  let source : Snapshot := ⟨default, "", 0⟩
  let r : Render := ⟨source, none, ⟨1⟩⟩
  let p : Position := { Position.origin with page := 1 }
  let c : Cycle := .fetchingPage r (some p) 1
  let page : Page := ⟨1, 1, 1, .empty⟩
  let shown (place : Nat) : Slot := ⟨.of (Toy.pagePng "") place, Toy.draw ""⟩
  let engine : Engine :=
    { Engine.start 4 with state := { State.empty 4 with pages := [shown 0, shown 1] } }
  have nothing : Run Step (.idle engine) [] _ := .nil
  have counting := (nothing.snoc (.starts _ (.render source))).snoc
    (.resumes [] (a := .cycle (.locating r)) rfl (.ok (some p)))
  have fetching := counting.snoc (.resumes [] (a := .cycle (.counting r (some p))) rfl (.ok 2))
  obtain ⟨moves, u, run, waits, current, refused⟩ : ∃ moves u, Run Step (.idle engine) moves u ∧
      u.waiting = [] ++ .cycle c :: [] ∧ c.isStale u.engine = false ∧
      (spliceOne u.engine.state page).result.isOk = false :=
    ⟨_, _, fetching, by decide +kernel⟩
  obtain ⟨progress, v, step⟩ : ∃ progress v, Step u (.resumes (.cycle c) (.ok page) progress) v :=
    ⟨_, _, .resumes (a := .cycle c) [] waits (.ok page)⟩
  have splices : c.Splices u.engine (.ok page) (.single 1) (spliceOne u.engine.state page) :=
    .one r (some p) page
  have last := List.mem_append_right moves (List.mem_singleton_self
    (⟨u, .resumes (.cycle c) (.ok page) progress, v⟩ : Move BusyEngine Act))
  obtain ⟨-, single, -⟩ := splices_in_range (run.snoc step) last current splices
  obtain ⟨bound, fails⟩ := single 1 rfl
  cases result : (spliceOne u.engine.state page).result with
  | ok => simp [result, Except.isOk, Except.toBool] at refused
  | error f =>
    obtain ⟨message, rfl⟩ := fails f result
    exact ⟨engine, _, v, u, v, c, _, progress, _, run.snoc step, last, current, splices, bound,
      message, result⟩

end BusyEngine

end Preview

end LivePreview
