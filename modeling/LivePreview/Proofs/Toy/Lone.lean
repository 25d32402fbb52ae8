import LivePreview.Proofs.Preview.Calls
import LivePreview.Proofs.Preview.Scene
import LivePreview.Proofs.Toy.Place
import LivePreview.Proofs.Toy.Script

/-!
# A compile alone

While nothing is arranged to fail, the answers to the calls of a compile are those of its own text
(`Awaits`), and each of them leads to the next stage, to the end, or to an error in the text
(`Awaits.turns`).  So if nothing else is asked of the engine, a compile that ends with its pages
rendered leaves the preview `Settled`: the findings, the number of pages and the place of the
cursor are those of the text, and the page of the cursor is in its slot and in the cache.
-/

namespace LivePreview.Toy

open Preview (Activity Coupling Cycle CycleStep Engine Outcome Plan Progress Render RenderReport
  Ticket BusyEngine)

/-! ## A backend that does what it is asked -/

namespace Backend

/-- No page is unreadable, nothing is arranged to fail, and cursors are placed. -/
structure Willing (b : Backend) : Prop where
  corrupt : b.corrupt = []
  failing : b.failing = []
  mapsCursor : b.mapsCursor = true

namespace Willing

variable {b : Backend} {text : String}

theorem respond (willing : b.Willing) (call : Call) : ∃ delay, b.respond call =
    (b.begin call.operation).2.2.answer delay false call := by
  have due : decide (call.operation ∈ b.failing) = false := by simp [willing.failing]
  exact ⟨_, congrArg (fun fails => (b.begin call.operation).2.2.answer _ fails call) due⟩

theorem persist (willing : b.Willing) (path : Path) (text : String) :
    (b.respond (.persistSource path text)).1.reply = .ok () := by
  obtain ⟨delay, responds⟩ := willing.respond (.persistSource path text)
  rw [responds]
  rfl

theorem compile (willing : b.Willing) : (b.respond .compile).1.reply =
    if (scanDiagnostics b.persisted).any Diagnostic.isError then
      .error (.compile (scanDiagnostics b.persisted))
    else .ok (scanDiagnostics b.persisted) := by
  obtain ⟨delay, responds⟩ := willing.respond .compile
  rw [responds]
  by_cases errors : (scanDiagnostics b.persisted).any Diagnostic.isError
  · simp [answer, begin, errors]
  · simp [answer, begin, errors]

theorem locate (willing : b.Willing) (source : Snapshot) : (b.respond
    (.resolveCursorPosition source.cursor source.content source.path)).1.reply =
      .ok (some (cursorPlace source)) := by
  obtain ⟨delay, responds⟩ :=
    willing.respond (.resolveCursorPosition source.cursor source.content source.path)
  rw [responds]
  simp [answer, begin, willing.mapsCursor, cursorPlace, cursorPage]

theorem count (willing : b.Willing) (compiled : b.compiled = some text) :
    (b.respond .pageCount).1.reply = .ok (splitPages text).length := by
  obtain ⟨delay, responds⟩ := willing.respond .pageCount
  rw [responds, ← pages_of_compiled compiled]
  rfl

theorem fetchAll (willing : b.Willing) :
    ∃ pages, (b.respond .renderAllPages).1.reply = .ok pages := by
  obtain ⟨delay, responds⟩ := willing.respond .renderAllPages
  exact ⟨_, by rw [responds]; rfl⟩

theorem fetchPage (willing : b.Willing) (compiled : b.compiled = some text) {index : Nat}
    (within : index < (splitPages text).length) :
    ∃ page, (b.respond (.renderPage index)).1.reply = .ok page := by
  obtain ⟨delay, responds⟩ := willing.respond (.renderPage index)
  have pages : (b.begin .renderPage).2.2.pages = splitPages text := pages_of_compiled compiled
  refine ⟨(b.begin .renderPage).2.2.page index (splitPages text)[index], ?_⟩
  rw [responds]
  simp [answer, pages, within]

end Willing

end Backend

/-! ## A preview that has settled -/

variable {source : Snapshot} {b : Backend} {e e' : Engine}

/-- The text has no errors, and what was found in it is shown. -/
structure Reported (source : Snapshot) (e : Engine) : Prop where
  passes : (scanDiagnostics source.content).any Diagnostic.isError = false
  diagnostics : e.state.diagnostics = scanDiagnostics source.content
  markers : e.state.markers =
    Marker.project source.content (scanDiagnostics source.content)

/-- The findings, the number of pages and the place of the cursor are those of the source, and the
    page of the cursor is in its slot and in the cache. -/
structure Settled (source : Snapshot) (e : Engine) : Prop extends Reported source e where
  position : e.state.position = cursorPlace source
  count : e.state.pages.length = (splitPages source.content).length
  shown : e.keys[cursorPage source]? = some (cursorKey source)
  cached : ∃ n image, e.state.cache.Recalls n (cursorKey source) image

theorem Reported.of_scene (reported : Reported source e)
    (diagnostics : e'.scene.diagnostics = e.scene.diagnostics)
    (markers : e'.scene.markers = e.scene.markers) : Reported source e' :=
  ⟨reported.passes, diagnostics.trans reported.diagnostics, markers.trans reported.markers⟩

theorem Settled.of_keeps (settled : Settled source e) (keeps : e.Keeps e')
    (display : e'.display = e.display) : Settled source e' := by
  obtain ⟨pages, diagnostics, markers, position⟩ := Preview.Scene.mk.inj keeps.scene
  have cache : e'.state.cache = e.state.cache := congrArg Prod.snd display
  refine ⟨settled.toReported.of_scene diagnostics markers, position.trans settled.position,
    pages ▸ settled.count, ?_, cache ▸ settled.cached⟩
  rw [Engine.keys, pages]
  exact settled.shown

/-- A render that brings the page of the cursor settles the preview. -/
theorem Settled.of_splice {splice : Preview.SpliceResult} {spliced : Preview.Spliced}
    (reported : Reported source e) (ok : splice.result = .ok spliced)
    (frame : ∃ cache slots, splice.state = { e.state with cache := cache, pages := slots })
    (count : splice.state.pages.length = (splitPages source.content).length)
    (shown : (splice.state.pages.map Preview.Slot.key)[cursorPage source]? =
      some (cursorKey source))
    (cached : ∃ n image, splice.state.cache.Recalls n (cursorKey source) image) (plan : Plan) :
    Settled source (e.endRender (some (cursorPlace source)) plan splice).1 := by
  have scene := Engine.endRender_scene ok frame (some (cursorPlace source)) plan
  have display := e.endRender_display (some (cursorPlace source)) plan splice
  obtain ⟨pages, cache⟩ := Prod.mk.inj display
  obtain ⟨-, diagnostics, markers, position⟩ := Preview.Scene.mk.inj scene
  refine ⟨reported.of_scene diagnostics markers, ?_, pages ▸ count, ?_, cache ▸ cached⟩
  · rw [position, Option.getD_some, count, cursorPlace_clamp]
  · rw [Engine.keys, pages]
    exact shown

/-- The page of the cursor is found in its slot and in the cache. -/
theorem Settled.spliceOne [ImageDecoder] (settled : Settled source e) {page : Page}
    (place : page.index = cursorPage source)
    (key : PageKey.of page.data page.index = cursorKey source) :
    ∃ cache, Preview.spliceOne e.state page =
      ⟨.ok ⟨[], 1, 0⟩, { e.state with cache := cache }, []⟩ := by
  obtain ⟨n, image, recalls⟩ := settled.cached
  refine Preview.spliceOne_of_recalls (key ▸ recalls) ?_
  rw [key, place]
  exact settled.shown

/-! ## What is answered at which stage -/

/-- The answers that the stages of a compile wait for, with the backend at `b` and the engine
    at `e`. -/
inductive Awaits (source : Snapshot) (b : Backend) (e : Engine) :
    (c : Cycle) → c.call.Reply → Prop
  | written (ticket : Ticket) (persisted : b.persisted = source.content) :
      Awaits source b e (.persisting source ticket) (.ok ())
  | compiled (ticket : Ticket)
      (passes : (scanDiagnostics source.content).any Diagnostic.isError = false)
      (compiled : b.compiled = some source.content) :
      Awaits source b e (.compiling source ticket) (.ok (scanDiagnostics source.content))
  | refused (ticket : Ticket)
      (errors : (scanDiagnostics source.content).any Diagnostic.isError = true) :
      Awaits source b e (.compiling source ticket)
        (.error (.compile (scanDiagnostics source.content)))
  | located (r : Render) (compiled : b.compiled = some source.content)
      (reported : Reported source e) :
      Awaits source b e (.locating r) (.ok (some (cursorPlace source)))
  | counted (r : Render) (compiled : b.compiled = some source.content)
      (reported : Reported source e) :
      Awaits source b e (.counting r (some (cursorPlace source)))
        (.ok (splitPages source.content).length)
  | fetchedAll (r : Render) (reported : Reported source e)
      (other : e.state.pages.length ≠ (splitPages source.content).length) {pages : List Page}
      (keys : (pages.zipIdx.map fun (page, i) => PageKey.of page.data i) =
        keysOf (splitPages source.content)) :
      Awaits source b e (.fetchingAll r (some (cursorPlace source))) (.ok pages)
  | fetchedPage (r : Render) (reported : Reported source e)
      (same : e.state.pages.length = (splitPages source.content).length) (page : Page)
      (place : page.index = cursorPage source)
      (key : PageKey.of page.data page.index = cursorKey source) :
      Awaits source b e (.fetchingPage r (some (cursorPlace source)) page.index) (.ok page)

theorem Awaits.of_texts {c : Cycle} {reply : c.call.Reply} (awaits : Awaits source b e c reply)
    {b' : Backend} (same : b'.texts = b.texts) : Awaits source b' e c reply := by
  obtain ⟨persisted, compiled⟩ := Prod.mk.inj same
  cases awaits with
  | written ticket written => exact .written ticket (persisted.trans written)
  | compiled ticket passes compiles => exact .compiled ticket passes (compiled.trans compiles)
  | refused ticket errors => exact .refused ticket errors
  | located r compiles reported => exact .located r (compiled.trans compiles) reported
  | counted r compiles reported => exact .counted r (compiled.trans compiles) reported
  | fetchedAll r reported other keys => exact .fetchedAll r reported other keys
  | fetchedPage r reported same page place key => exact .fetchedPage r reported same page place key

/-- What the answer to a call makes of a compile. -/
inductive Turns (source : Snapshot) (b : Backend) (e : Engine) (c : Cycle) : CycleStep → Prop
  | goesOn {e' : Engine} {next : Cycle}
      (awaits : Awaits source (b.respond next.call).2 e' next (b.respond next.call).1.reply)
      (asked : next.asked = c.asked + 1) (display : e'.display = e.display)
      (keeps : Settled source e → e.Keeps e') : Turns source b e c (e', .waits next)
  | renders {e' : Engine} {report : RenderReport} (asked : c.asked = 5)
      (settled : Settled source e')
      (again : Settled source e → e.Keeps e' ∧ report =
        ⟨.single (cursorPage source), (splitPages source.content).length, [], 1, 0⟩) :
      Turns source b e c (e', .ended (.rendered report))
  | fails {e' : Engine} {kind : FailureKind} (unsettled : ¬ Settled source e) :
      Turns source b e c (e', .ended (.failed kind))

namespace Turns

variable {ticket : Ticket} {r : Render}

/-- A render ends in an error if its splice does. -/
theorem of_broken {c : Cycle} {splice : Preview.SpliceResult} {f : Failure}
    (broken : splice.result = .error f) (unsettled : ¬ Settled source e) (plan : Plan) :
    Turns source b e c (e.endRender (some (cursorPlace source)) plan splice) := by
  simp only [Engine.endRender, broken]
  exact .fails unsettled

/-- A render ends settled if its splice brings the page of the cursor. -/
theorem of_splice {c : Cycle} {splice : Preview.SpliceResult} {spliced : Preview.Spliced}
    (asked : c.asked = 5) (reported : Reported source e) (ok : splice.result = .ok spliced)
    (frame : ∃ cache slots, splice.state = { e.state with cache := cache, pages := slots })
    (count : splice.state.pages.length = (splitPages source.content).length)
    (shown : (splice.state.pages.map Preview.Slot.key)[cursorPage source]? =
      some (cursorKey source))
    (cached : ∃ n image, splice.state.cache.Recalls n (cursorKey source) image) (plan : Plan)
    (again : Settled source e →
      e.Keeps (e.endRender (some (cursorPlace source)) plan splice).1 ∧
        plan = .single (cursorPage source) ∧ spliced = ⟨[], 1, 0⟩) :
    Turns source b e c (e.endRender (some (cursorPlace source)) plan splice) := by
  have settled := Settled.of_splice reported ok frame count shown cached plan
  have report := Engine.endRender_report (e := e) ok (some (cursorPlace source)) plan
  generalize e.endRender (some (cursorPlace source)) plan splice = step at settled report again ⊢
  obtain ⟨e', progress⟩ := step
  obtain rfl : progress = _ := report
  refine .renders asked settled fun before => ?_
  obtain ⟨keeps, rfl, rfl⟩ := again before
  exact ⟨keeps, by rw [count]⟩

variable [ImageDecoder]

theorem of_persist (willing : b.Willing) (persisted : b.persisted = source.content)
    (current : (Cycle.persisting source ticket).isStale e = false) :
    Turns source b e (.persisting source ticket)
      ((Cycle.persisting source ticket).resume e (.ok ())) := by
  have step : (Cycle.persisting source ticket).resume e (.ok ()) =
      (e, .waits (.compiling source ticket)) := by
    simp [Cycle.resume, current, Engine.afterPersist]
  rw [step]
  refine .goesOn ?_ rfl rfl fun _ => .refl e
  have reply := willing.compile
  rw [persisted] at reply
  by_cases errors : (scanDiagnostics source.content).any Diagnostic.isError
  · rw [if_pos errors] at reply
    exact reply ▸ .refused ticket errors
  · rw [if_neg errors] at reply
    have compiled := (b.respond_compile.1 _ reply).2
    rw [persisted] at compiled
    exact reply ▸ .compiled ticket (Bool.eq_false_iff.mpr errors) compiled

theorem of_compile (willing : b.Willing)
    (passes : (scanDiagnostics source.content).any Diagnostic.isError = false)
    (compiled : b.compiled = some source.content)
    (current : (Cycle.compiling source ticket).isStale e = false) :
    Turns source b e (.compiling source ticket)
      ((Cycle.compiling source ticket).resume e (.ok (scanDiagnostics source.content))) := by
  obtain ⟨e', keeps, display, passed⟩ :=
    e.afterCompile_passed source ticket (scanDiagnostics source.content)
  obtain ⟨-, diagnostics, markers, -⟩ := Preview.Scene.mk.inj keeps.scene
  simp only [Cycle.resume, current, Bool.false_eq_true, if_false, passed]
  refine .goesOn ?_ rfl (by simp [display]) fun settled => ?_
  · have reported : Reported source ((e'.replaceDiagnostics source
        (scanDiagnostics source.content)).startRender source (some ticket)).1 :=
      ⟨passes, by simp [Engine.startRender, Engine.replaceDiagnostics],
        by simp [Engine.startRender, Engine.replaceDiagnostics]⟩
    have asked : (b.respond (.resolveCursorPosition source.cursor source.content
        source.path)).2.compiled = some source.content :=
      (b.respond_compiled (by trivial)).trans compiled
    exact willing.locate source ▸ .located _ asked reported
  · refine keeps.trans (Engine.Keeps.trans ?_ (Engine.startRender_keeps ..))
    exact Engine.replaceDiagnostics_keeps (diagnostics.trans settled.diagnostics)
      (markers.trans settled.markers)

theorem of_refusal {f : Failure}
    (errors : (scanDiagnostics source.content).any Diagnostic.isError = true)
    (current : (Cycle.compiling source ticket).isStale e = false) :
    Turns source b e (.compiling source ticket)
      ((Cycle.compiling source ticket).resume e (.error f)) := by
  have leads := (Cycle.compiling source ticket).resume_leads e (.error f)
  generalize (Cycle.compiling source ticket).resume e (.error f) = step at leads ⊢
  obtain ⟨e', progress⟩ := step
  cases leads with
  | refused =>
    refine .fails fun settled => ?_
    rw [settled.passes] at errors
    cases errors
  | fetched fetches => cases fetches
  | overtaken stale => exact absurd ((Cycle.isStale_iff _ e).mp current) stale

theorem of_locate (willing : b.Willing) (compiled : b.compiled = some source.content)
    (reported : Reported source e) (current : (Cycle.locating r).isStale e = false) :
    Turns source b e (.locating r)
      ((Cycle.locating r).resume e (.ok (some (cursorPlace source)))) := by
  have step : (Cycle.locating r).resume e (.ok (some (cursorPlace source))) =
      (e, .waits (.counting r (some (cursorPlace source)))) := by
    simp [Cycle.resume, current, Engine.afterLocate, locateCursor]
  rw [step]
  refine .goesOn ?_ rfl rfl fun _ => .refl e
  have asked : (b.respond .pageCount).2.compiled = some source.content :=
    (b.respond_compiled (by trivial)).trans compiled
  exact willing.count compiled ▸ .counted r asked reported

theorem of_count (willing : b.Willing) (compiled : b.compiled = some source.content)
    (reported : Reported source e)
    (current : (Cycle.counting r (some (cursorPlace source))).isStale e = false) :
    Turns source b e (.counting r (some (cursorPlace source)))
      ((Cycle.counting r (some (cursorPlace source))).resume e
        (.ok (splitPages source.content).length)) := by
  obtain ⟨lines, counted⟩ :=
    e.afterCount_ok r (some (cursorPlace source)) (splitPages source.content).length
  simp only [Cycle.resume, current, Bool.false_eq_true, if_false, counted]
  have said : Reported source (e.say lines) := reported.of_scene rfl rfl
  by_cases same : e.state.pages.length = (splitPages source.content).length
  · have single : Preview.fetching r e.state.pages.length (splitPages source.content).length
        (some (cursorPlace source)) =
          .fetchingPage r (some (cursorPlace source)) (cursorPage source) := by
      simp [Preview.fetching, Plan.choose, same, cursorPlace, cursorPage_lt]
    rw [single]
    refine .goesOn ?_ rfl (e.say_display lines) fun _ => e.say_keeps lines
    obtain ⟨⟨index, width, height, data⟩, ok⟩ := willing.fetchPage compiled (cursorPage_lt source)
    obtain ⟨place, text, found, drawn⟩ := Backend.respond_page_drawn willing.corrupt compiled ok
    obtain rfl : index = cursorPage source := place
    obtain ⟨_, rfl⟩ := List.getElem?_eq_some_iff.mp found
    have key : PageKey.of data (cursorPage source) = cursorKey source :=
      congrArg (PageKey.of · (cursorPage source)) drawn
    rw [ok]
    exact .fetchedPage r said same ⟨cursorPage source, width, height, data⟩ rfl key
  · have full : Preview.fetching r e.state.pages.length (splitPages source.content).length
        (some (cursorPlace source)) = .fetchingAll r (some (cursorPlace source)) := by
      simp [Preview.fetching, Plan.choose, same]
    rw [full]
    refine .goesOn ?_ rfl (e.say_display lines) fun _ => e.say_keeps lines
    obtain ⟨pages, ok⟩ := willing.fetchAll
    exact ok ▸ .fetchedAll r said same
      (Backend.respond_allPages_keys willing.corrupt compiled ok)

theorem of_fetchAll (fits : (splitPages source.content).length < Text.wordLimit)
    (reported : Reported source e)
    (other : e.state.pages.length ≠ (splitPages source.content).length) {pages : List Page}
    (keys : (pages.zipIdx.map fun (page, i) => PageKey.of page.data i) =
      keysOf (splitPages source.content))
    (current : (Cycle.fetchingAll r (some (cursorPlace source))).isStale e = false) :
    Turns source b e (.fetchingAll r (some (cursorPlace source)))
      ((Cycle.fetchingAll r (some (cursorPlace source))).resume e (.ok pages)) := by
  have unsettled : ¬ Settled source e := fun settled => other settled.count
  simp only [Cycle.resume, current, Bool.false_eq_true, if_false, Engine.afterFetchAll]
  cases ends : (Preview.spliceAll e.state pages).result with
  | error f => exact .of_broken ends unsettled .full
  | ok spliced =>
    have all : e.state.cache.All fun _ _ => True := fun _ _ => trivial
    have drawn := ((Preview.spliceAll_shows all fun _ _ _ _ => trivial).2 spliced ends).1
    rw [keys] at drawn
    have count : (Preview.spliceAll e.state pages).state.pages.length =
        (splitPages source.content).length := by
      simpa using congrArg List.length drawn
    have length := (Preview.length_of_spliceAll ends).symm.trans count
    have cached := Preview.spliceAll_recalls_own ends (length ▸ fits)
    have shown := keysOf_cursorPage source
    rw [← drawn] at shown
    obtain ⟨slot, found, key⟩ := Option.map_eq_some_iff.mp (List.getElem?_map .. ▸ shown)
    exact .of_splice rfl reported ends (Preview.spliceAll_frame ..) count shown
      ⟨_, slot.image, key ▸ cached slot (List.mem_of_getElem? found)⟩ .full
      fun settled => absurd settled unsettled

theorem of_fetchPage (room : 0 < e.state.cache.capacity) (reported : Reported source e)
    (same : e.state.pages.length = (splitPages source.content).length) {page : Page}
    (place : page.index = cursorPage source)
    (key : PageKey.of page.data page.index = cursorKey source)
    (current : (Cycle.fetchingPage r (some (cursorPlace source)) page.index).isStale e = false) :
    Turns source b e (.fetchingPage r (some (cursorPlace source)) page.index)
      ((Cycle.fetchingPage r (some (cursorPlace source)) page.index).resume e (.ok page)) := by
  simp only [Cycle.resume, current, Bool.false_eq_true, if_false, Engine.afterFetchPage, ne_eq,
    not_true_eq_false]
  cases ends : (Preview.spliceOne e.state page).result with
  | error f =>
    -- a settled preview has the image, so only one that is not can fail
    refine .of_broken ends (fun settled => ?_) _
    obtain ⟨cache, one⟩ := settled.spliceOne place key
    rw [one] at ends
    cases ends
  | ok spliced =>
    have count : (Preview.spliceOne e.state page).state.pages.length =
        (splitPages source.content).length := (Preview.length_spliceOne ..).trans same
    obtain ⟨within, keys⟩ := Cycle.keys_of_spliceOne ends
    obtain ⟨image, recalls⟩ := Preview.spliceOne_recalls_own ends room
    refine .of_splice rfl reported ends (Preview.spliceOne_frame ..) count
      (by rw [keys, ← place, List.getElem?_set_self within, key]) ⟨1, image, key ▸ recalls⟩ _
      fun settled => ?_
    obtain ⟨cache, one⟩ := settled.spliceOne place key
    rw [one] at ends ⊢
    exact ⟨Engine.endRender_keeps settled.position (same ▸ cursorPlace_clamp source)
      (cursorPlace_samePoint source) .., congrArg Plan.single place, (Except.ok.inj ends).symm⟩

end Turns

/-- An answer leads a compile to its next stage, or to its end. -/
theorem Awaits.turns [ImageDecoder] (willing : b.Willing)
    (fits : (splitPages source.content).length < Text.wordLimit)
    (room : 0 < e.state.cache.capacity) {c : Cycle} {reply : c.call.Reply}
    (awaits : Awaits source b e c reply) (current : c.isStale e = false) :
    Turns source b e c (c.resume e reply) := by
  cases awaits with
  | written ticket persisted => exact .of_persist willing persisted current
  | compiled ticket passes compiled => exact .of_compile willing passes compiled current
  | refused ticket errors => exact .of_refusal errors current
  | located r compiled reported => exact .of_locate willing compiled reported current
  | counted r compiled reported => exact .of_count willing compiled reported current
  | fetchedAll r reported other keys => exact .of_fetchAll fits reported other keys current
  | fetchedPage r reported same page place key =>
    exact .of_fetchPage room reported same place key current

end LivePreview.Toy
