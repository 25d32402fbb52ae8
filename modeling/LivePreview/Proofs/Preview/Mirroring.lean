import LivePreview.Page.Decoder
import LivePreview.Proofs.Preview.Telling
import LivePreview.Toy.Layout

/-!
# A view mirrors the engine

A view that starts blank and follows every event shows what the engine shows, after every
step of every run, and no slot changes that is not announced (`BusyEngine.view_mirrors_engine`).
A view may also read the events late: whenever it has read them all, it shows the engine
as it is then (`ViewedEngine.catches_up`).
-/

namespace LivePreview.Preview

namespace BusyEngine

/-- The view that starts blank and follows the events of each move when it is made. -/
def watched (moves : List (Move BusyEngine Act)) : View :=
  moves.foldl (fun v move => v.followAll move.after.engine.state.pages (told move)) .blank

/-- In whatever order operations start and go on, and whatever is replied: after every step
    the view that follows the events has the phase, the markers and the page slots of the
    engine.  A slot that a step changes is named in an event of this step, or there is an
    event that tells that the list has become too short for it. -/
theorem view_mirrors_engine [ImageDecoder] {cacheCapacity : Nat}
    {moves : List (Move BusyEngine Act)} {s : BusyEngine}
    (run : Run Step (.idle (.start cacheCapacity)) moves s) :
    watched moves = .of s.engine ∧
    ∀ move ∈ moves, ∀ i, move.after.engine.state.pages[i]? ≠ move.before.engine.state.pages[i]? →
      ∃ indices total, .pagesChanged indices total ∈ told move ∧ (i ∈ indices ∨ total ≤ i) := by
  constructor
  · refine run.keeps (P := fun moves s => watched moves = .of s.engine) rfl
      fun {moves s act t} shown step => ?_
    have caughtUp := step.tells.catchesUp [] (watched moves) shown
    rw [watched, List.foldl_append]
    exact caughtUp
  · intro move mem
    obtain ⟨_, _, step⟩ := run.reach mem
    exact step.tells.announces

attribute [local instance] pngDecoder

/-- A page is rendered and a reset clears it.  The view shows the page and then none. -/
theorem page_seen_and_cleared : ∃ moves s cleared, Run Step (.idle (.start 4)) moves s ∧
    Run Step (.idle (.start 4)) (moves ++ [⟨s, .resets, cleared⟩]) cleared ∧
    (watched moves).slots = [some ⟨.of (Toy.pagePng "") 0, Toy.draw ""⟩] ∧
    watched (moves ++ [⟨s, .resets, cleared⟩]) = .of cleared.engine ∧
    (watched (moves ++ [⟨s, .resets, cleared⟩])).slots = [] ∧
    ∃ indices total, .pagesChanged indices total ∈ told ⟨s, .resets, cleared⟩ ∧
      (0 ∈ indices ∨ total ≤ 0) := by
  let source : Snapshot := ⟨default, "", 0⟩
  let r : Render := ⟨source, none, ⟨1⟩⟩
  have nothing : Run Step (.idle (.start 4)) [] _ := .nil
  have rendered := (((nothing.snoc (.starts _ (.render source))).snoc
    (.resumes [] (a := .cycle (.locating r)) rfl (.ok none))).snoc
    (.resumes [] (a := .cycle (.counting r none)) rfl (.ok 1))).snoc
    (.resumes [] (a := .cycle (.fetchingAll r none)) rfl (.ok [⟨0, 1, 1, Toy.pagePng ""⟩]))
  obtain ⟨moves, s, run, shown⟩ : ∃ moves s, Run Step (.idle (.start 4)) moves s ∧
      s.engine.state.pages = [⟨.of (Toy.pagePng "") 0, Toy.draw ""⟩] :=
    ⟨_, _, rendered, by decide +kernel⟩
  have reset := run.snoc (.resets s)
  obtain ⟨shows, announced⟩ := view_mirrors_engine reset
  have none : (View.of s.engine.reset).slots = [] := by simp [View.of, Engine.reset]
  refine ⟨moves, s, _, run, reset, ?_, shows, shows ▸ none, ?_⟩
  · rw [(view_mirrors_engine run).1, View.of, shown]
    rfl
  · refine announced _ (by simp) 0 ?_
    simp [Engine.reset, shown]

end BusyEngine

/-! ## Views that lag behind -/

/-- The operations under way, and a view with the events that it did not read yet. -/
structure ViewedEngine where
  busyEngine : BusyEngine
  view : View
  unread : List Event

namespace ViewedEngine

def idle (engine : Engine) : ViewedEngine :=
  ⟨.idle engine, .blank, []⟩

variable [ImageDecoder]

/-- A step of the operations, of which the view hears, or the view reads the next event.  It
    finds the page list as it is by then. -/
inductive Step : ViewedEngine → Option BusyEngine.Act → ViewedEngine → Prop
  | acts {s : ViewedEngine} {act : BusyEngine.Act} {t : BusyEngine}
      (step : BusyEngine.Step s.busyEngine act t) :
      Step s (some act) ⟨t, s.view, s.unread ++ BusyEngine.told ⟨s.busyEngine, act, t⟩⟩
  | reads {s : ViewedEngine} {event : Event} {later : List Event}
      (unread : s.unread = event :: later) :
      Step s none ⟨s.busyEngine, s.view.follow s.busyEngine.engine.state.pages event, later⟩

/-- Reading on brings the view to what the engine shows, and the events that are left are
    enough for it. -/
theorem catches_up {cacheCapacity : Nat} {moves : List (Move ViewedEngine (Option BusyEngine.Act))}
    {s : ViewedEngine} (run : Run Step (.idle (.start cacheCapacity)) moves s) :
    s.view.followAll s.busyEngine.engine.state.pages s.unread = .of s.busyEngine.engine := by
  refine run.keeps (P := fun _ s =>
    s.view.followAll s.busyEngine.engine.state.pages s.unread = .of s.busyEngine.engine) rfl
    fun {moves s act t} shown step => ?_
  cases step with
  | acts step => exact step.tells.catchesUp _ _ shown
  | reads unread =>
    rw [unread] at shown
    exact shown

end ViewedEngine

end LivePreview.Preview
