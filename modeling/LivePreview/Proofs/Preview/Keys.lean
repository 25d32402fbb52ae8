import LivePreview.Proofs.Preview.Coupling
import LivePreview.Proofs.Preview.Telling

/-!
# The keys on display

What is on display is told apart by the keys of the slots.  A step of a cycle leaves them alone,
or the cycle has rendered: then all of them are those of the pages that were fetched, or the one
of the page that was fetched is set (`Cycle.resume_draws`).  So of all that happens around an
engine, only what is rendered and a reset change the keys (`Coupling.Step.keys_of_unrendered`).
-/

namespace LivePreview.Preview

/-- The keys of the slots. -/
def Engine.keys (e : Engine) : List PageKey :=
  e.state.pages.map Slot.key

namespace Cycle

/-- The keys on display once the pages that a cycle has fetched are rendered: those of all pages,
    or the key of one page is set. -/
inductive Renders (e : Engine) : (c : Cycle) → c.call.Reply → Plan → List PageKey → Prop
  | all {r : Render} {cursor : Option Position} {pages : List Page} {keys : List PageKey}
      (drawn : keys = pages.zipIdx.map fun (page, i) => .of page.data i) :
      Renders e (.fetchingAll r cursor) (.ok pages) .full keys
  | one {r : Render} {cursor : Option Position} {page : Page} {keys : List PageKey}
      (within : page.index < e.keys.length)
      (drawn : keys = e.keys.set page.index (.of page.data page.index)) :
      Renders e (.fetchingPage r cursor page.index) (.ok page) (.single page.index) keys

/-- What a step of a cycle makes of the keys on display. -/
inductive Draws (e : Engine) (c : Cycle) (reply : c.call.Reply) : CycleStep → Prop
  | keeps {e' : Engine} {progress : Progress Cycle Outcome} (same : e'.keys = e.keys)
      (other : ∀ report, progress ≠ .ended (.rendered report)) : Draws e c reply (e', progress)
  | renders {e' : Engine} {report : RenderReport}
      (renders : Renders e c reply report.plan e'.keys) :
      Draws e c reply (e', .ended (.rendered report))

theorem keys_of_display {e e' : Engine} (same : e'.display = e.display) : e'.keys = e.keys :=
  congrArg (fun display => display.1.map Slot.key) same

/-- A cycle that has rendered has the ticket of a render. -/
theorem Renders.render? {c : Cycle} {e : Engine} {reply : c.call.Reply} {plan : Plan}
    {keys : List PageKey} (renders : Renders e c reply plan keys) : ∃ r, c.render? = some r := by
  cases renders with
  | @all r => exact ⟨r, rfl⟩
  | @one r => exact ⟨r, rfl⟩

theorem Draws.of_fail {c : Cycle} {reply : c.call.Reply} {e e' : Engine}
    (same : e'.display = e.display) (f : Failure) : Draws e c reply (e'.fail f) :=
  .keeps (keys_of_display ((e'.fail_display f).trans same)) fun _ rendered => nomatch rendered

variable [ImageDecoder]

/-- The splice of one page that succeeds sets its key. -/
theorem keys_of_spliceOne {e : Engine} {page : Page} {spliced : Spliced}
    (ok : (spliceOne e.state page).result = .ok spliced) :
    page.index < e.keys.length ∧ (spliceOne e.state page).state.pages.map Slot.key =
      e.keys.set page.index (.of page.data page.index) := by
  have all : e.state.cache.All fun _ _ => True := fun _ _ => trivial
  have shows := ((spliceOne_shows all fun _ _ => trivial).2 spliced ok).1
  rw [← List.getElem?_map] at shows
  rcases spliceOne_changed ok with ⟨-, same⟩ | ⟨-, slot, pages⟩
  · rw [same] at shows ⊢
    obtain ⟨within, key⟩ := List.getElem?_eq_some_iff.mp shows
    exact ⟨within, by rw [← key, Engine.keys, List.set_getElem_self]⟩
  · rw [pages, List.map_set] at shows ⊢
    obtain ⟨within, key⟩ := List.getElem?_eq_some_iff.mp shows
    rw [List.getElem_set_self] at key
    exact ⟨by simpa [Engine.keys] using within, by rw [key, Engine.keys]⟩

theorem endRender_draws {e : Engine} {c : Cycle} {reply : c.call.Reply} {plan : Plan}
    {splice : SpliceResult} (splices : Splices e c reply plan splice)
    (cursor : Option Position) : Draws e c reply (e.endRender cursor plan splice) := by
  unfold Engine.endRender
  cases ends : splice.result with
  | error f =>
    refine .keeps ((keys_of_display (Engine.fail_display ..)).trans ?_)
      fun _ rendered => nomatch rendered
    exact congrArg (List.map Slot.key) (splices.refused ends)
  | ok spliced =>
    have shown := keys_of_display
      ((({ e with state := splice.state } : Engine).say splice.lines).afterSplice_display cursor
        plan spliced)
    cases splices with
    | all r cursor' pages =>
      have all : e.state.cache.All fun _ _ => True := fun _ _ => trivial
      exact .renders (.all (shown.trans
        ((spliceAll_shows all fun _ _ _ _ => trivial).2 spliced ends).1))
    | one r cursor' page =>
      obtain ⟨within, keys⟩ := keys_of_spliceOne ends
      exact .renders (.one within (shown.trans keys))

theorem Takes.draws {e : Engine} {c : Cycle} {reply : c.call.Reply} {step : CycleStep}
    (takes : Takes e c reply step) : Draws e c reply step := by
  cases takes with
  | fetchedAll r cursor pages => exact endRender_draws (.all r cursor pages) cursor
  | fetchedOne r cursor page => exact endRender_draws (.one r cursor page) cursor
  | passed => exact .keeps (keys_of_display (by simp)) fun _ rendered => nomatch rendered
  | written | located | nowhere | wantsAll | wantsOne =>
    exact .keeps rfl fun _ rendered => nomatch rendered
  | _ => exact .of_fail (by simp) _

/-- Only the pages that a cycle has rendered change the keys. -/
theorem resume_draws (c : Cycle) (e : Engine) (reply : c.call.Reply) :
    Draws e c reply (c.resume e reply) := by
  have resumes := c.resumes e reply
  generalize c.resume e reply = step at resumes ⊢
  cases resumes with
  | dropped => exact .keeps rfl fun _ rendered => nomatch rendered
  | inTime current takes => exact takes.draws

theorem renders_of_rendered {c : Cycle} {e : Engine} {reply : c.call.Reply} {report : RenderReport}
    (rendered : (c.resume e reply).2 = .ended (.rendered report)) :
    Renders e c reply report.plan (c.resume e reply).1.keys := by
  have draws := c.resume_draws e reply
  revert rendered draws
  generalize c.resume e reply = step
  intro rendered draws
  cases draws with
  | keeps same other => exact absurd rendered (other report)
  | renders renders =>
    obtain rfl := Outcome.rendered.inj (Progress.ended.inj rendered)
    exact renders

/-- A cycle that has not rendered leaves the keys alone. -/
theorem keys_of_unrendered {c : Cycle} {e : Engine} {reply : c.call.Reply}
    (unrendered : ∀ report, (c.resume e reply).2 ≠ .ended (.rendered report)) :
    (c.resume e reply).1.keys = e.keys := by
  have draws := c.resume_draws e reply
  revert unrendered draws
  generalize c.resume e reply = step
  intro unrendered draws
  cases draws with
  | keeps same => exact same
  | renders => exact absurd rfl (unrendered _)

end Cycle

theorem Demand.start_keys (demand : Demand) (e : Engine) : (demand.start e).1.keys = e.keys :=
  Cycle.keys_of_display (demand.start_display e)

theorem Click.resume_keys (click : Click) (e : Engine) (reply : Except Failure Jump) :
    (click.resume e reply).1.keys = e.keys :=
  Cycle.keys_of_display (click.resume_display e reply)

/-! ## Steps that render -/

namespace Coupling

variable {v : Service} {s t : Coupling v} {act : Option BusyEngine.Act}

/-- The cycle that has rendered in a step, and its plan. -/
def rendered? : Option BusyEngine.Act → Option (Cycle × Plan)
  | some (.resumes (.cycle c) _ (.ended (.cycle (.rendered report)))) => some (c, report.plan)
  | _ => none

/-- Nothing is compiled in a step that renders. -/
theorem compiles?_of_rendered? {act : Option BusyEngine.Act} {c : Cycle} {plan : Plan}
    (renders : rendered? act = some (c, plan)) : compiles? act = none := by
  unfold rendered? at renders
  split at renders
  · rfl
  · cases renders

variable [ImageDecoder]

/-- A cycle renders when it is answered in time. -/
theorem Step.of_rendered? (step : Step s act t) {c : Cycle} {plan : Plan}
    (renders : rendered? act = some (c, plan)) :
    ∃ before after ongoing reply b, s.errands = before ++ ⟨.cycle c, ongoing⟩ :: after ∧
      v.Answers s.service ongoing reply b ∧ (Activity.cycle c).IsCurrent s.engine.counters ∧
      c.Renders s.engine reply plan t.engine.keys ∧
      t = ⟨(c.resume s.engine reply).1, b, before ++ after⟩ := by
  unfold rendered? at renders
  split at renders
  · next c' reply report =>
    cases renders
    obtain ⟨before, after, ongoing, b, waits, answers, ended, became⟩ := step.of_resumes
    obtain ⟨current, rendered⟩ := Activity.resume_ended ended.symm (by rintro ⟨⟩)
    rw [← ended] at became
    refine ⟨before, after, ongoing, reply, b, waits, answers,
      (c.isStale_iff s.engine).mp current, ?_,
      by simpa [Service.dispatch, Activity.resume] using became⟩
    rw [became]
    exact Cycle.renders_of_rendered rendered
  · cases renders

/-- Nothing else changes the keys, except that a reset clears them. -/
theorem Step.keys_of_unrendered (step : Step s act t) (kept : act ≠ some .resets)
    (quiet : rendered? act = none) : t.engine.keys = s.engine.keys := by
  cases step with
  | starts demand => exact demand.start_keys s.engine
  | resets => exact absurd rfl kept
  | @resumes before after errand waits reply b answers =>
    obtain ⟨activity, ongoing⟩ := errand
    cases activity with
    | cycle c =>
      refine Cycle.keys_of_unrendered fun report rendered => ?_
      simp [Activity.resume, rendered, Progress.map, rendered?] at quiet
    | click click => exact click.resume_keys s.engine reply
  | proceeds | drifts => rfl

end Coupling

end LivePreview.Preview
