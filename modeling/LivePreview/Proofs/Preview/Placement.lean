import LivePreview.Page.Decoder
import LivePreview.Proofs.Preview.Outlook
import LivePreview.Toy.Layout

/-!
# Positions are on pages

The position and the page list are written by different operations: renders and resets write
both, clicks only the position.  After every step the position is on a page of the list, and
whoever is told of a position has the page it names (`BusyEngine.position_on_page`).
-/

namespace LivePreview.Preview.BusyEngine

section Runs

variable [ImageDecoder]

/-- The position that is told in a step is the one that is taken. -/
theorem Step.position_of_told {s t : BusyEngine} {act : Act} (step : Step s act t) {p : Position}
    (mem : .positionChanged p ∈ told ⟨s, act, t⟩) : p = t.engine.state.position := by
  obtain ⟨messages, added, taken⟩ := step.leads
  exact taken p (step.messages_told added ▸ List.mem_filter.mpr ⟨mem, rfl⟩)

theorem onPage_of_run {cacheCapacity : Nat} {moves : List (Move BusyEngine Act)} {s : BusyEngine}
    (run : Run Step (.idle (.start cacheCapacity)) moves s) :
    s.engine.state.position.IsOn s.engine.state.pages.length :=
  run.keeps (P := fun _ s => s.engine.state.position.IsOn s.engine.state.pages.length)
    (.inr ⟨rfl, rfl⟩) fun onPage step => step.tells.onPage onPage

/-- In whatever order operations start and go on, and wherever cursors and clicks are said to
    be: after every step the position is on one of the displayed pages, or on the first if there
    are none.  A position that is told in a step is the one that is taken; it is on a page of
    the list after the step, and of the list as it is known when the position is told, from
    before the step and from the events told earlier in it. -/
theorem position_on_page {cacheCapacity : Nat} {moves : List (Move BusyEngine Act)} {s : BusyEngine}
    (run : Run Step (.idle (.start cacheCapacity)) moves s) :
    s.engine.state.position.IsOn s.engine.state.pages.length ∧
    ∀ move ∈ moves, ∀ earlier p later, told move = earlier ++ .positionChanged p :: later →
      p = move.after.engine.state.position ∧
      p.IsOn move.after.engine.state.pages.length ∧
      p.IsOn (pagesAfter move.before.engine.state.pages.length earlier) := by
  refine ⟨onPage_of_run run, fun move mem earlier p later cut => ?_⟩
  obtain ⟨first, begun, step⟩ := run.reach mem
  have onPage := onPage_of_run (begun.snoc step)
  have taken : p = move.after.engine.state.position :=
    step.position_of_told (cut ▸ List.mem_append_cons_self)
  exact ⟨taken, taken ▸ onPage, (cut ▸ step.tells.points).isOn⟩

end Runs

attribute [local instance] pngDecoder

/-- One page is displayed, and a click leads to the eighth.  The position that is taken and
    told is on the first. -/
theorem click_beyond_last_page : ∃ moves s u a reply progress p,
    Run Step (.idle (.start 4)) moves s ∧ ⟨u, .resumes a reply progress, s⟩ ∈ moves ∧
    told ⟨u, .resumes a reply progress, s⟩ = [.positionChanged p] ∧ p.page = 0 ∧
    s.engine.state.pages.length = 1 ∧ p = s.engine.state.position ∧
    s.engine.state.position.IsOn 1 ∧ p.IsOn (pagesAfter 1 []) := by
  let source : Snapshot := ⟨default, "", 0⟩
  let r : Render := ⟨source, none, ⟨1⟩⟩
  let click : Click := ⟨⟨1⟩, "", 0, 0, 0⟩
  let target : Position := ⟨7, 0, 0⟩
  have nothing : Run Step (.idle (.start 4)) [] _ := .nil
  have rendered := ((((nothing.snoc (.starts _ (.render source))).snoc
    (.resumes [] (a := .cycle (.locating r)) rfl (.ok none))).snoc
    (.resumes [] (a := .cycle (.counting r none)) rfl (.ok 1))).snoc
    (.resumes [] (a := .cycle (.fetchingAll r none)) rfl (.ok [⟨0, 1, 1, Toy.pagePng ""⟩]))).snoc
    (.starts _ (.click "" 0 0 0))
  obtain ⟨moves, u, run, waits, current, shown⟩ : ∃ moves u, Run Step (.idle (.start 4)) moves u ∧
      u.waiting = [] ++ .click click :: [] ∧ click.isStale u.engine = false ∧
      u.engine.state.pages.length = 1 :=
    ⟨_, _, rendered, by decide +kernel⟩
  obtain ⟨progress, t, step, engine⟩ : ∃ progress t,
      Step u (.resumes (.click click) (.ok (.position target)) progress) t ∧
      t.engine = (click.resume u.engine (.ok (.position target))).1 :=
    ⟨_, _, .resumes [] waits (.ok (.position target)), rfl⟩
  have pages : t.engine.state.pages.length = 1 := by
    simp [engine, Click.resume, current, checkJump, Engine.follow, shown]
  have told : told ⟨u, .resumes (.click click) (.ok (.position target)) progress, t⟩ =
      [.positionChanged (target.clamp 1)] := by
    apply told_of_events
    simp [engine, Click.resume, current, checkJump, Engine.follow, shown]
  obtain ⟨onPage, placed⟩ := position_on_page (run.snoc step)
  obtain ⟨taken, -, known⟩ := placed _ List.mem_concat_self
    [] (target.clamp 1) [] told
  exact ⟨_, t, u, _, _, progress, target.clamp 1, run.snoc step,
    List.mem_concat_self, told, rfl, pages, taken,
    pages ▸ onPage, shown ▸ known⟩

end LivePreview.Preview.BusyEngine
