import LivePreview.Proofs.Preview.Calls
import LivePreview.Proofs.Preview.Coupling
import LivePreview.Proofs.Preview.Range
import LivePreview.Proofs.Preview.Telling

/-!
# The scene

The `Scene` is what there is to see of the preview: the pages, the diagnostics with their
markers, and the position.  Most of what an engine does leaves the scene as it is and tells of
nothing else than phases and diagnostics (`Engine.Keeps`); a render sets the scene at its end
(`Engine.endRender_scene`).  The cache below the scene never loses room
(`Coupling.capacity_le_of_run`).
-/

namespace LivePreview

/-- Whether an event tells of the pages or of the position. -/
def Event.redraws : Event → Bool
  | .pagesChanged _ _ => true
  | .positionChanged _ => true
  | _ => false

namespace Preview

/-- What there is to see of the preview, but for its phase. -/
structure Scene where
  pages : List Slot
  diagnostics : List Diagnostic
  markers : List Marker
  position : Position

namespace Engine

def scene (e : Engine) : Scene :=
  ⟨e.state.pages, e.state.diagnostics, e.state.markers, e.state.position⟩

/-- On the way from `e` to `e'` the scene stays as it is, and no event tells of the pages or of
    the position. -/
structure Keeps (e e' : Engine) : Prop where
  scene : e'.scene = e.scene
  told : ∃ told, e'.events = e.events ++ told ∧ ∀ event ∈ told, event.redraws = false

variable {e e' e'' : Engine}

theorem Keeps.silent (scene : e'.scene = e.scene) (events : e'.events = e.events) : e.Keeps e' :=
  ⟨scene, [], by rw [events, List.append_nil], fun _ mem => nomatch mem⟩

theorem Keeps.refl (e : Engine) : e.Keeps e :=
  .silent rfl rfl

theorem Keeps.trans (first : e.Keeps e') (next : e'.Keeps e'') : e.Keeps e'' := by
  obtain ⟨told, events, quiet⟩ := first.told
  obtain ⟨more, events', quiet'⟩ := next.told
  refine ⟨next.scene.trans first.scene, told ++ more, ?_, ?_⟩
  · rw [events', events, List.append_assoc]
  · exact List.forall_mem_append.mpr ⟨quiet, quiet'⟩

theorem emit_keeps (e : Engine) {event : Event} (quiet : event.redraws = false) :
    e.Keeps (e.emit event) :=
  ⟨rfl, [event], e.emit_events event, List.forall_mem_singleton.mpr quiet⟩

theorem say_keeps (e : Engine) (lines : List Console.LogLine) : e.Keeps (e.say lines) :=
  .silent rfl (e.say_events lines)

theorem setPhase_keeps (e : Engine) (phase : Phase) : e.Keeps (e.setPhase phase) := by
  simp only [setPhase]
  split
  · have quiet : (Event.phase phase).redraws = false := rfl
    refine Keeps.trans ?_ (emit_keeps _ quiet)
    exact .silent rfl rfl
  · exact .silent rfl rfl

theorem settlePhase_keeps (e : Engine) : e.Keeps e.settlePhase :=
  e.setPhase_keeps _

theorem finishCompile_keeps (e : Engine) (ticket : Ticket) : e.Keeps (e.finishCompile ticket) := by
  unfold finishCompile
  split
  · exact .silent rfl rfl
  · exact .refl e

theorem startCompile_keeps (e : Engine) (source : Snapshot) :
    e.Keeps (e.startCompile source).1 := by
  simp only [startCompile, debug_eq]
  refine Keeps.trans ?_ (setPhase_keeps _ .compiling)
  exact .silent rfl (say_events _ _)

theorem startRender_keeps (e : Engine) (source : Snapshot) (compile : Option Ticket) :
    e.Keeps (e.startRender source compile).1 := by
  simp only [startRender]
  refine Keeps.trans ?_ (setPhase_keeps _ .rendering)
  exact .silent rfl rfl

/-- Diagnostics that are shown already are shown again. -/
theorem replaceDiagnostics_keeps {source : Snapshot} {diagnostics : List Diagnostic}
    (same : e.state.diagnostics = diagnostics)
    (markers : e.state.markers = Marker.project source.content diagnostics) :
    e.Keeps (e.replaceDiagnostics source diagnostics) := by
  refine ⟨?_, [.diagnostics (Marker.project source.content diagnostics)], emit_events _ _,
    List.forall_mem_singleton.mpr rfl⟩
  simp only [scene, replaceDiagnostics, emit_state, same, markers]

/-- The steps of a compile that has passed: what is said first leaves the scene alone, then the
    diagnostics are shown and a render begins. -/
theorem afterCompile_passed (e : Engine) (source : Snapshot) (ticket : Ticket)
    (diagnostics : List Diagnostic) : ∃ e', e.Keeps e' ∧ e'.display = e.display ∧
      e.afterCompile source ticket (.ok diagnostics) =
        (((e'.replaceDiagnostics source diagnostics).startRender source (some ticket)).1,
          .waits
            ((e'.replaceDiagnostics source diagnostics).startRender source (some ticket)).2) := by
  refine ⟨_, ?_, ?_, rfl⟩
  · split
    · exact (e.finishCompile_keeps ticket).trans (say_keeps _ _)
    · exact e.finishCompile_keeps ticket
  · split <;> simp

theorem afterCount_ok (e : Engine) (r : Render) (cursor : Option Position) (count : Nat) :
    ∃ lines, e.afterCount r cursor (.ok count) =
      (e.say lines, .waits (fetching r e.state.pages.length count cursor)) := by
  unfold afterCount fetching
  dsimp only
  cases Plan.choose e.state.pages.length count cursor with
  | full => exact ⟨_, rfl⟩
  | single index => exact ⟨_, rfl⟩

/-! ## The end of a render -/

theorem afterSplice_scene (e : Engine) (cursor : Option Position) (plan : Plan)
    (spliced : Spliced) :
    (e.afterSplice cursor plan spliced).1.scene =
      { e.scene with position := (cursor.getD e.state.position).clamp e.state.pages.length } := by
  obtain ⟨lines, eq⟩ := e.afterSplice_eq cursor plan spliced rfl
  rw [eq]
  simp [scene, settleOn]

/-- A render whose splice succeeds sets the scene. -/
theorem endRender_scene {splice : SpliceResult} {spliced : Spliced}
    (ok : splice.result = .ok spliced)
    (frame : ∃ cache slots, splice.state = { e.state with cache := cache, pages := slots })
    (cursor : Option Position) (plan : Plan) :
    (e.endRender cursor plan splice).1.scene =
      { e.scene with
        pages := splice.state.pages
        position := (cursor.getD e.state.position).clamp splice.state.pages.length } := by
  obtain ⟨cache, slots, frame⟩ := frame
  unfold endRender
  simp only [ok, afterSplice_scene]
  simp [scene, frame]

theorem endRender_report {splice : SpliceResult} {spliced : Spliced}
    (ok : splice.result = .ok spliced) (cursor : Option Position) (plan : Plan) :
    (e.endRender cursor plan splice).2 = .ended (.rendered
      ⟨plan, splice.state.pages.length, spliced.changed, spliced.hits, spliced.misses⟩) := by
  unfold endRender
  simp only [ok]
  rfl

/-- A single page that has not changed, with the cursor where the preview points already. -/
theorem endRender_keeps {p : Position} (there : e.state.position = p)
    (fits : p.clamp e.state.pages.length = p) (same : p.samePoint p = true)
    (index hits misses : Nat) (cache : RenderCache) :
    e.Keeps (e.endRender (some p) (.single index)
      ⟨.ok ⟨[], hits, misses⟩, { e.state with cache := cache }, []⟩).1 := by
  obtain ⟨spliced, stored⟩ : ∃ e' : Engine,
      ({ e with state := { e.state with cache := cache } } : Engine).say [] = e' := ⟨_, rfl⟩
  have stores : e.Keeps spliced := stored ▸ .silent rfl (say_events _ _)
  obtain ⟨lines, eq⟩ := spliced.afterSplice_eq (some p) (.single index) ⟨[], hits, misses⟩
    (p := p) (by rw [← stored]; exact fits.symm)
  have position : spliced.state.position = p := stored ▸ there
  simp only [endRender, stored]
  rw [position] at eq
  rw [eq, emitIf, if_neg (by simp [same]), emitIf, if_neg (by simp)]
  refine stores.trans ((Keeps.trans ?_ (settlePhase_keeps _)).trans (say_keeps _ lines))
  exact .silent (by simp only [scene, settleOn, position]) rfl

end Engine

/-! ## Pages that are cached -/

variable [ImageDecoder]

/-- A full splice leaves its pages in the cache if they can be counted by a machine word. -/
theorem spliceAll_recalls_own {s : State} {pages : List Page} {spliced : Spliced}
    (ok : (spliceAll s pages).result = .ok spliced) (fits : pages.length < Text.wordLimit) :
    ∀ slot ∈ (spliceAll s pages).state.pages,
      (spliceAll s pages).state.cache.Recalls pages.length slot.key slot.image := by
  have splices := splicesAll s pages
  generalize spliceAll s pages = splice at ok splices ⊢
  cases splices with
  | refused | broken => cases ok
  | shown placed loads =>
    refine loadAll_recalls_own ?_ loads
    have room : pages.length ≤ RenderCache.wanted pages.length := by
      simp only [RenderCache.wanted]
      omega
    rw [RenderCache.ensureCapacity_capacity]
    exact Nat.le_trans room (Nat.le_max_right ..)

/-- The splice of one page leaves it in the cache. -/
theorem spliceOne_recalls_own {s : State} {page : Page} {spliced : Spliced}
    (ok : (spliceOne s page).result = .ok spliced) (room : 0 < s.cache.capacity) :
    ∃ image, (spliceOne s page).state.cache.Recalls 1 (.of page.data page.index) image := by
  have splices := splicesOne s page
  generalize spliceOne s page = splice at ok splices ⊢
  cases splices with
  | refused | broken => cases ok
  | @shown loaded after load changed slots =>
    have recalls := RenderCache.recalls_loaded room page (congrArg Prod.fst load)
    have loads := s.cache.load_loads page
    rw [load] at recalls loads
    cases loads with
    | hit | miss => exact ⟨_, recalls⟩

/-- A page that is cached and in its slot is found, and changes nothing but the cache. -/
theorem spliceOne_of_recalls {s : State} {page : Page} {n : Nat} {image : PageImage}
    (recalls : s.cache.Recalls n (.of page.data page.index) image)
    (shown : (s.pages.map Slot.key)[page.index]? = some (.of page.data page.index)) :
    ∃ cache, spliceOne s page = ⟨.ok ⟨[], 1, 0⟩, { s with cache := cache }, []⟩ := by
  rw [List.getElem?_map] at shown
  obtain ⟨slot, found, key⟩ := Option.map_eq_some_iff.mp shown
  have loads := RenderCache.load_of_recalls recalls
  simp [spliceOne, found, loads, key]

/-! ## Room in the cache -/

theorem Cycle.resume_capacity_le (c : Cycle) (e : Engine) (reply : c.call.Reply) :
    e.state.cache.capacity ≤ (c.resume e reply).1.state.cache.capacity := by
  have displays := c.resume_displays e reply
  generalize c.resume e reply = step at displays ⊢
  cases displays with
  | splices splices display =>
    have same := congrArg (fun display => display.2.capacity) display
    refine Nat.le_trans ?_ (Nat.le_of_eq same.symm)
    cases splices with
    | all => exact spliceAll_capacity_le ..
    | one => exact Nat.le_of_eq (spliceOne_capacity ..).symm
  | leaves display =>
    exact Nat.le_of_eq (congrArg (fun display => display.2.capacity) display).symm

theorem BusyEngine.Step.capacity_le {s t : BusyEngine} {act : Act} (step : Step s act t) :
    s.engine.state.cache.capacity ≤ t.engine.state.cache.capacity := by
  cases step with
  | starts demand =>
    have same := demand.start_display s.engine
    exact Nat.le_of_eq (congrArg (fun display => display.2.capacity) same).symm
  | resets =>
    simp only [Engine.reset, Engine.setPhase_state]
    exact Nat.le_refl _
  | @resumes before after a waits reply =>
    cases a with
    | cycle c => exact c.resume_capacity_le s.engine reply
    | click click =>
      have same := click.resume_display s.engine reply
      exact Nat.le_of_eq (congrArg (fun display => display.2.capacity) same).symm

/-- The cache never loses room. -/
theorem Coupling.capacity_le_of_run {v : Service} {s t : Coupling v}
    {moves : List (Move (Coupling v) (Option BusyEngine.Act))} (run : Run Step s moves t) :
    s.engine.state.cache.capacity ≤ t.engine.state.cache.capacity := by
  refine run.keeps
    (P := fun _ t => s.engine.state.cache.capacity ≤ t.engine.state.cache.capacity)
    (Nat.le_refl _) fun {_ u act t} earlier step => Nat.le_trans earlier ?_
  have seen := step.busyEngine
  cases act with
  | none => exact Nat.le_of_eq (congrArg (·.engine.state.cache.capacity) seen).symm
  | some act => exact seen.capacity_le

end Preview

end LivePreview
