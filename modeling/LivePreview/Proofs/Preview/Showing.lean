import LivePreview.Proofs.Cache.Kept
import LivePreview.Proofs.Preview.Succession

/-!
# What the preview shows

Only a splice changes the page list and the cache, and only the answer of a compile
changes the diagnostics.  A splice that succeeds leaves the keys of the pages that
were fetched (`spliceAll_shows`, `spliceOne_shows`); what holds of every decoded page
holds of what is shown.
-/

namespace LivePreview.Preview

/-! ## Splices -/

theorem index_of_placed {pages : List Page} (placed : misplaced? pages = none) :
    (pages.map fun page => PageKey.of page.data page.index) =
      pages.zipIdx.map fun (page, i) => PageKey.of page.data i := by
  have places : ∀ pair ∈ pages.zipIdx, pair.1.index = pair.2 := by
    simpa [misplaced?] using placed
  conv_lhs => rw [← List.zipIdx_map_fst 0 pages, List.map_map]
  exact List.map_congr_left fun pair mem => by simp [places pair mem]

section Splices

variable [ImageDecoder] {P : PageKey → PageImage → Prop}

/-- Whether something holds of a page once it is decoded. -/
def Decodes (P : PageKey → PageImage → Prop) (page : Page) : Prop :=
  ∀ image, decodeImage page.data = .ok image → P (.of page.data page.index) image

theorem loadAll_all {cache : RenderCache} (all : cache.All P) {pages : List Page}
    (decodes : ∀ page ∈ pages, Decodes P page) :
    (loadAll cache pages).2.All P ∧ ∀ slots, (loadAll cache pages).1 = .ok slots →
      (slots.map Slot.key = pages.map fun page => .of page.data page.index) ∧
        ∀ slot ∈ slots, P slot.key slot.image := by
  induction pages generalizing cache with
  | nil =>
    refine ⟨all, fun slots ok => ?_⟩
    obtain rfl := Except.ok.inj ok
    simp
  | cons page pages inductionHypothesis =>
    obtain ⟨first, others⟩ := List.forall_mem_cons.mp decodes
    obtain ⟨after, loads⟩ := all.load first
    simp only [loadAll]
    split
    · next f cache' failed => exact ⟨by simpa [failed] using after, fun slots ok => nomatch ok⟩
    · next loaded cache' ok =>
      simp only [ok] at after loads
      obtain ⟨key, holds⟩ := loads loaded rfl
      obtain ⟨last, rest⟩ := inductionHypothesis after others
      split
      · next f cache'' failed => exact ⟨by simpa [failed] using last, fun slots ok => nomatch ok⟩
      · next slots cache'' ok' =>
        simp only [ok'] at last rest
        obtain ⟨keys, hold⟩ := rest slots rfl
        refine ⟨last, fun slots' done => ?_⟩
        obtain rfl := Except.ok.inj done
        exact ⟨by simp [key, keys], List.forall_mem_cons.mpr ⟨holds, hold⟩⟩

/-- A full splice that succeeds shows the pages that were fetched, in their places. -/
theorem spliceAll_shows {s : State} (all : s.cache.All P) {pages : List Page}
    (decodes : ∀ page ∈ pages, Decodes P page) :
    (spliceAll s pages).state.cache.All P ∧
      ∀ spliced, (spliceAll s pages).result = .ok spliced →
        ((spliceAll s pages).state.pages.map Slot.key =
          pages.zipIdx.map fun (page, i) => .of page.data i) ∧
        ∀ slot ∈ (spliceAll s pages).state.pages, P slot.key slot.image := by
  unfold spliceAll
  split
  · exact ⟨all, fun spliced ok => nomatch ok⟩
  · next placed =>
    obtain ⟨after, loads⟩ := loadAll_all (all.ensureCapacity pages.length) decodes
    dsimp only
    split
    · next f cache failed => exact ⟨by simpa [failed] using after, fun spliced ok => nomatch ok⟩
    · next slots cache ok =>
      simp only [ok] at after loads
      obtain ⟨keys, hold⟩ := loads slots rfl
      exact ⟨after, fun spliced _ => ⟨keys.trans (index_of_placed placed), hold⟩⟩

/-- The splice of one page that succeeds shows it in its slot. -/
theorem spliceOne_shows {s : State} (all : s.cache.All P) {page : Page}
    (decodes : Decodes P page) :
    (spliceOne s page).state.cache.All P ∧
      ∀ spliced, (spliceOne s page).result = .ok spliced →
        ((spliceOne s page).state.pages[page.index]?.map Slot.key =
          some (.of page.data page.index)) ∧
        ∃ image, P (.of page.data page.index) image := by
  obtain ⟨after, loads⟩ := all.load decodes
  unfold spliceOne
  split
  · exact ⟨all, fun spliced ok => nomatch ok⟩
  · next slot shown =>
    split
    · next f cache failed => exact ⟨by simpa [failed] using after, fun spliced ok => nomatch ok⟩
    · next loaded cache ok =>
      simp only [ok] at after loads
      obtain ⟨key, holds⟩ := loads loaded rfl
      have bound : page.index < s.pages.length := (List.getElem?_eq_some_iff.mp shown).1
      dsimp only
      split
      · next same =>
        exact ⟨after, fun spliced _ => ⟨by simp [shown, same, key], _, key ▸ holds⟩⟩
      · exact ⟨after, fun spliced _ =>
          ⟨by simp [List.getElem?_set_self bound, key], _, key ▸ holds⟩⟩

/-- A full splice changes nothing but the page list and the cache. -/
theorem spliceAll_frame (s : State) (pages : List Page) :
    ∃ cache slots, (spliceAll s pages).state = { s with cache := cache, pages := slots } := by
  unfold spliceAll
  split
  · exact ⟨s.cache, s.pages, rfl⟩
  · dsimp only
    split
    · exact ⟨_, s.pages, rfl⟩
    · exact ⟨_, _, rfl⟩

/-- The splice of one page changes nothing but the page list and the cache. -/
theorem spliceOne_frame (s : State) (page : Page) :
    ∃ cache slots, (spliceOne s page).state = { s with cache := cache, pages := slots } := by
  unfold spliceOne
  split
  · exact ⟨s.cache, s.pages, rfl⟩
  · split
    · exact ⟨_, s.pages, rfl⟩
    · dsimp only
      split
      · exact ⟨_, s.pages, rfl⟩
      · exact ⟨_, _, rfl⟩

end Splices

/-! ## Steps that splice -/

/-- What is on display: the page list, with the cache of decoded pages. -/
def Engine.display (e : Engine) : List Slot × RenderCache :=
  (e.state.pages, e.state.cache)

namespace Engine

@[simp] theorem say_display (e : Engine) (lines : List Console.LogLine) :
    (e.say lines).display = e.display := rfl

@[simp] theorem emit_display (e : Engine) (event : Event) :
    (e.emit event).display = e.display := rfl

@[simp] theorem setPhase_display (e : Engine) (phase : Phase) :
    (e.setPhase phase).display = e.display := by
  simp [display]

@[simp] theorem settlePhase_display (e : Engine) : e.settlePhase.display = e.display :=
  setPhase_display ..

@[simp] theorem fail_display (e : Engine) (f : Failure) :
    (e.fail f).1.display = e.display := by
  simp [display]

@[simp] theorem finishCompile_display (e : Engine) (ticket : Ticket) :
    (e.finishCompile ticket).display = e.display := by
  unfold finishCompile
  split <;> rfl

@[simp] theorem replaceDiagnostics_display (e : Engine) (source : Snapshot)
    (diagnostics : List Diagnostic) :
    (e.replaceDiagnostics source diagnostics).display = e.display := rfl

@[simp] theorem startCompile_display (e : Engine) (source : Snapshot) :
    (e.startCompile source).1.display = e.display := by
  simp only [startCompile, setPhase_display]
  rfl

@[simp] theorem startRender_display (e : Engine) (source : Snapshot) (compile : Option Ticket) :
    (e.startRender source compile).1.display = e.display := by
  simp only [startRender, setPhase_display]
  rfl

/-- The position and the messages after a splice have no part in what is displayed. -/
@[simp] theorem afterSplice_display (e : Engine) (cursor : Option Position) (plan : Plan)
    (spliced : Spliced) : (e.afterSplice cursor plan spliced).1.display = e.display := by
  simp only [afterSplice, debug_eq, say_display, settlePhase_display]
  split <;> split <;> rfl

@[simp] theorem follow_display (e : Engine) (jump : Jump) :
    (e.follow jump).display = e.display := by
  cases jump <;> rfl

end Engine

namespace Cycle

variable [ImageDecoder]

/-- `Splices e c reply plan splice`: with the engine at `e`, the reply to the cycle `c`
    brings pages for `plan`, which are spliced in with the result `splice`. -/
inductive Splices (e : Engine) : (c : Cycle) → c.call.Reply → Plan → SpliceResult → Prop
  | all (r : Render) (cursor : Option Position) (pages : List Page) :
      Splices e (.fetchingAll r cursor) (.ok pages) .full (spliceAll e.state pages)
  | one (r : Render) (cursor : Option Position) (page : Page) :
      Splices e (.fetchingPage r cursor page.index) (.ok page) (.single page.index)
        (spliceOne e.state page)

/-- A step of a cycle splices pages in, and then the cycle has rendered if the splice
    succeeds; or it leaves what is displayed alone, and has rendered nothing. -/
inductive Displays (e : Engine) (c : Cycle) (reply : c.call.Reply) : CycleStep → Prop
  | splices {e' : Engine} {outcome : Outcome} {plan : Plan} {splice : SpliceResult}
      (splices : Splices e c reply plan splice)
      (display : e'.display = (splice.state.pages, splice.state.cache))
      (rendered : ∀ report, outcome = .rendered report →
        report.plan = plan ∧ ∃ spliced, splice.result = .ok spliced) :
      Displays e c reply (e', .ended outcome)
  | leaves {e' : Engine} {progress : Progress Cycle Outcome} (display : e'.display = e.display)
      (other : ∀ report, progress ≠ .ended (.rendered report)) :
      Displays e c reply (e', progress)

/-- A cycle that has its pages rendered has spliced them in. -/
theorem Displays.of_rendered {c : Cycle} {reply : c.call.Reply} {e : Engine} {step : CycleStep}
    (displays : Displays e c reply step) {report : RenderReport}
    (rendered : step.2 = .ended (.rendered report)) :
    ∃ plan splice spliced, Splices e c reply plan splice ∧ report.plan = plan ∧
      splice.result = .ok spliced ∧ step.1.display = (splice.state.pages, splice.state.cache) := by
  cases displays with
  | splices splices display done =>
    obtain ⟨planned, spliced, ok⟩ := done report (Progress.ended.inj rendered)
    exact ⟨_, _, spliced, splices, planned, ok, display⟩
  | leaves display other => exact absurd rendered (other report)

theorem Displays.of_fail {c : Cycle} {reply : c.call.Reply} {e e' : Engine}
    (same : e'.display = e.display) (f : Failure) : Displays e c reply (e'.fail f) :=
  .leaves ((e'.fail_display f).trans same) fun _ rendered => nomatch rendered

theorem endRender_displays {c : Cycle} {reply : c.call.Reply} {e : Engine} {plan : Plan}
    {splice : SpliceResult} (splices : Splices e c reply plan splice)
    (cursor : Option Position) : Displays e c reply (e.endRender cursor plan splice) := by
  unfold Engine.endRender
  cases ends : splice.result with
  | error f => exact .splices splices (Engine.fail_display ..) fun _ rendered => nomatch rendered
  | ok spliced =>
    refine .splices splices (Engine.afterSplice_display ..) fun report rendered => ?_
    obtain rfl := Outcome.rendered.inj rendered
    exact ⟨rfl, spliced, ends⟩

theorem Takes.displays {e : Engine} {c : Cycle} {reply : c.call.Reply} {step : CycleStep}
    (takes : Takes e c reply step) : Displays e c reply step := by
  cases takes with
  | fetchedAll r cursor pages => exact endRender_displays (.all r cursor pages) cursor
  | fetchedOne r cursor page => exact endRender_displays (.one r cursor page) cursor
  | passed => exact .leaves (by simp) fun _ rendered => nomatch rendered
  | written | located | nowhere | wantsAll | wantsOne =>
    exact .leaves rfl fun _ rendered => nomatch rendered
  | _ => exact .of_fail (by simp) _

/-- Only the answers with pages change what is displayed. -/
theorem resume_displays (c : Cycle) (e : Engine) (reply : c.call.Reply) :
    Displays e c reply (c.resume e reply) := by
  have resumes := c.resumes e reply
  generalize c.resume e reply = step at resumes ⊢
  cases resumes with
  | dropped => exact .leaves rfl fun _ rendered => nomatch rendered
  | inTime current takes => exact takes.displays

end Cycle

theorem Click.resume_display (c : Click) (e : Engine) (reply : Except Failure Jump) :
    (c.resume e reply).1.display = e.display := by
  unfold Click.resume
  split
  · rfl
  · split
    · rfl
    · exact Engine.follow_display ..

theorem Demand.start_display (demand : Demand) (e : Engine) :
    (demand.start e).1.display = e.display := by
  cases demand with
  | compile source => exact e.startCompile_display source
  | render source => exact e.startRender_display source none
  | click text page x y => rfl

/-! ## Images in the cache -/

def delivered : (call : Call) → call.Reply → List Page
  | .renderAllPages, .ok pages => pages
  | .renderPage _, .ok page => [page]
  | _, _ => []

section Cached

variable {P : PageKey → PageImage → Prop}

theorem Demand.start_cache {e : Engine} (all : e.state.cache.All P) (demand : Demand) :
    (demand.start e).1.state.cache.All P := by
  have display := demand.start_display e
  simp only [Engine.display, Prod.mk.injEq] at display
  exact display.2 ▸ all

theorem Engine.reset_cache (e : Engine) : e.reset.state.cache.All P := by
  simp only [reset, setPhase_state]
  exact RenderCache.All.clear _

variable [ImageDecoder]

/-- What holds of every page that is delivered and decoded holds of every image in the
    cache. -/
theorem Cycle.Splices.cache {e : Engine} {c : Cycle} {reply : c.call.Reply} {plan : Plan}
    {splice : SpliceResult} (splices : Splices e c reply plan splice)
    (all : e.state.cache.All P) (decodes : ∀ page ∈ delivered c.call reply, Decodes P page) :
    splice.state.cache.All P := by
  cases splices with
  | all r cursor pages => exact (spliceAll_shows all decodes).1
  | one r cursor page => exact (spliceOne_shows all (decodes page (List.mem_singleton_self page))).1

theorem Activity.resume_cache {a : Activity} {e : Engine} {reply : a.call.Reply}
    (all : e.state.cache.All P) (decodes : ∀ page ∈ delivered a.call reply, Decodes P page) :
    (a.resume e reply).1.state.cache.All P := by
  cases a with
  | cycle c =>
    have displays := c.resume_displays e reply
    show (c.resume e reply).1.state.cache.All P
    revert displays
    generalize c.resume e reply = step
    rintro (⟨splices, display, _⟩ | ⟨display, _⟩)
    · rw [Engine.display, Prod.mk.injEq] at display
      exact display.2 ▸ splices.cache all decodes
    · simp only [Engine.display, Prod.mk.injEq] at display
      exact display.2 ▸ all
  | click c =>
    have display := c.resume_display e reply
    simp only [Engine.display, Prod.mk.injEq] at display
    show (c.resume e reply).1.state.cache.All P
    exact display.2 ▸ all

end Cached

/-! ## Steps that show diagnostics -/

def announced? : Event → Option (List Marker)
  | .diagnostics markers => some markers
  | _ => none

/-- What was found out about the source: the diagnostics and the markers that are shown,
    and the markers that were announced so far. -/
structure Findings where
  diagnostics : List Diagnostic
  markers : List Marker
  announced : List (List Marker)
  deriving DecidableEq

namespace Engine

def findings (e : Engine) : Findings :=
  ⟨e.state.diagnostics, e.state.markers, e.events.filterMap announced?⟩

@[simp] theorem say_findings (e : Engine) (lines : List Console.LogLine) :
    (e.say lines).findings = e.findings := by
  simp [findings]

theorem emit_findings (e : Engine) {event : Event} (other : announced? event = none) :
    (e.emit event).findings = e.findings := by
  simp [findings, other]

@[simp] theorem setPhase_findings (e : Engine) (phase : Phase) :
    (e.setPhase phase).findings = e.findings := by
  simp only [setPhase]
  split
  · exact emit_findings _ rfl
  · rfl

@[simp] theorem settlePhase_findings (e : Engine) : e.settlePhase.findings = e.findings :=
  setPhase_findings ..

@[simp] theorem fail_findings (e : Engine) (f : Failure) :
    (e.fail f).1.findings = e.findings := by
  simp only [fail, notify_eq]
  rw [emit_findings _ rfl, settlePhase_findings, setPhase_findings]
  rfl

@[simp] theorem finishCompile_findings (e : Engine) (ticket : Ticket) :
    (e.finishCompile ticket).findings = e.findings := by
  unfold finishCompile
  split <;> rfl

@[simp] theorem startRender_findings (e : Engine) (source : Snapshot) (compile : Option Ticket) :
    (e.startRender source compile).1.findings = e.findings := by
  simp only [startRender, setPhase_findings]
  rfl

theorem replaceDiagnostics_findings (e : Engine) (source : Snapshot)
    (diagnostics : List Diagnostic) :
    (e.replaceDiagnostics source diagnostics).findings =
      ⟨diagnostics, Marker.project source.content diagnostics,
        e.findings.announced ++ [Marker.project source.content diagnostics]⟩ := by
  simp [replaceDiagnostics, findings, announced?]

@[simp] theorem afterSplice_findings (e : Engine) (cursor : Option Position) (plan : Plan)
    (spliced : Spliced) : (e.afterSplice cursor plan spliced).1.findings = e.findings := by
  simp only [afterSplice, debug_eq, say_findings, settlePhase_findings]
  split
  · rw [emit_findings _ rfl]
    split
    · exact emit_findings _ rfl
    · rfl
  · split
    · exact emit_findings _ rfl
    · rfl

end Engine

namespace Cycle

/-- `Reports c reply diagnostics`: the reply to the cycle `c` is the answer of a compile
    that passed or refused the source with these diagnostics. -/
inductive Reports : (c : Cycle) → c.call.Reply → List Diagnostic → Prop
  | passed (source : Snapshot) (ticket : Ticket) (diagnostics : List Diagnostic) :
      Reports (.compiling source ticket) (.ok diagnostics) diagnostics
  | refused (source : Snapshot) (ticket : Ticket) (diagnostics : List Diagnostic) :
      Reports (.compiling source ticket) (.error (.compile diagnostics)) diagnostics

theorem endRender_findings (e : Engine) (cursor : Option Position) (plan : Plan)
    {splice : SpliceResult}
    (frame : ∃ cache pages, splice.state = { e.state with cache, pages }) :
    (e.endRender cursor plan splice).1.findings = e.findings := by
  obtain ⟨cache, pages, frame⟩ := frame
  have same : (({ e with state := splice.state } : Engine).say splice.lines).findings =
      e.findings := by
    simp [Engine.findings, frame]
  unfold Engine.endRender
  split
  · rw [Engine.fail_findings, same]
  · rw [Engine.afterSplice_findings, same]

variable [ImageDecoder]

theorem Takes.findings {e : Engine} {c : Cycle} {reply : c.call.Reply} {step : CycleStep}
    (takes : Takes e c reply step) :
    step.1.findings = e.findings ∨
      ∃ diagnostics, Reports c reply diagnostics ∧ step.1.findings =
        ⟨diagnostics, Marker.project c.source.content diagnostics,
          e.findings.announced ++ [Marker.project c.source.content diagnostics]⟩ := by
  cases takes with
  | passed source ticket diagnostics lines =>
    refine .inr ⟨diagnostics, .passed source ticket diagnostics, ?_⟩
    simp only [Engine.startRender_findings, Engine.replaceDiagnostics_findings,
      Engine.say_findings, Engine.finishCompile_findings]
    rfl
  | refused source ticket diagnostics =>
    refine .inr ⟨diagnostics, .refused source ticket diagnostics, ?_⟩
    simp only [Engine.fail_findings, Engine.replaceDiagnostics_findings,
      Engine.finishCompile_findings]
    rfl
  | fetchedAll => exact .inl (endRender_findings e _ .full (spliceAll_frame ..))
  | fetchedOne => exact .inl (endRender_findings e _ _ (spliceOne_frame ..))
  | _ => exact .inl (by simp)

/-- Only the answer of a compile changes what was found out, and it is about the source
    of the cycle. -/
theorem resume_findings (c : Cycle) (e : Engine) (reply : c.call.Reply) :
    (c.resume e reply).1.findings = e.findings ∨
      ∃ diagnostics, Reports c reply diagnostics ∧ c.isStale e = false ∧
        (c.resume e reply).1.findings =
          ⟨diagnostics, Marker.project c.source.content diagnostics,
            e.findings.announced ++ [Marker.project c.source.content diagnostics]⟩ := by
  have resumes := c.resumes e reply
  generalize c.resume e reply = step at resumes ⊢
  cases resumes with
  | dropped => exact .inl (by simp)
  | inTime current takes =>
    refine takes.findings.imp_right ?_
    rintro ⟨diagnostics, reports, found⟩
    exact ⟨diagnostics, reports, current, found⟩

end Cycle

end LivePreview.Preview
