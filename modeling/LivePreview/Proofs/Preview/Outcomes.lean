import LivePreview.Page.Decoder
import LivePreview.Proofs.Preview.Courses
import LivePreview.Proofs.Preview.Outlook
import LivePreview.Toy.Layout

/-!
# What a cycle leaves behind

A cycle that fails or is superseded leaves pages and position alone in all its moves.  Of a
failure there is one notification, with the text that is stored, and none of any other
outcome.  A cycle changes diagnostics and markers with the answer of its own compile only
(`BusyEngine.outcome_of_moves`).
-/

namespace LivePreview

def Event.notice? : Event → Option (Level × String)
  | .notify level message => some (level, message)
  | _ => none

theorem Event.filterMap_notice? (events : List Event) :
    (events.filter isMessage).filterMap notice? = events.filterMap notice? := by
  rw [List.filterMap_filter]
  refine List.filterMap_congr fun event _ => ?_
  cases event <;> rfl

namespace Preview

/-- `outcome.Reported told stored`: what is notified on the way to an outcome, and the failure
    that is stored then. -/
inductive Outcome.Reported : Outcome → List (Level × String) → Option String → Prop
  | failed (f : Failure) : Reported (.failed f.kind) [(.error, f.message)] (some f.message)
  | superseded (stored : Option String) : Reported .superseded [] stored
  | rendered (report : RenderReport) : Reported (.rendered report) [] none

theorem Outcome.Reported.of_failed {kind : FailureKind} {told : List (Level × String)}
    {stored : Option String} (reported : (Outcome.failed kind).Reported told stored) :
    ∃ f : Failure, f.kind = kind ∧ told = [(.error, f.message)] ∧ stored = some f.message := by
  generalize same : Outcome.failed kind = outcome at reported
  cases reported with
  | failed f => exact ⟨f, (Outcome.failed.inj same).symm, rfl, rfl⟩
  | superseded | rendered => cases same

theorem Demand.start_findings (demand : Demand) (e : Engine) :
    (demand.start e).1.findings = e.findings := by
  cases demand with
  | compile source =>
    simp only [start, Engine.startCompile, Engine.setPhase_findings]
    exact Engine.say_findings _ _
  | render source => exact e.startRender_findings source none
  | click text page x y => rfl

namespace BusyEngine

section Moves

variable [ImageDecoder] {engine : Engine} {s t : BusyEngine} {act : Act} {badge : Badge}
  {moves : List (Move BusyEngine Act)}

/-! ## Single moves -/

def notices (move : Move BusyEngine Act) : List (Level × String) :=
  (told move).filterMap Event.notice?

theorem Step.notices_of_messages (step : Step s act t) {added : List Event}
    (messages : t.engine.outlook.messages = s.engine.outlook.messages ++ added) :
    notices ⟨s, act, t⟩ = added.filterMap Event.notice? := by
  rw [notices, ← Event.filterMap_notice?, step.messages_told messages]

theorem Step.no_notices (step : Step s act t) (same : t.engine.outlook = s.engine.outlook) :
    notices ⟨s, act, t⟩ = [] := by
  have messages : t.engine.outlook.messages = s.engine.outlook.messages ++ [] := by
    rw [same, List.append_nil]
  exact step.notices_of_messages messages

theorem Step.concludes {c : Cycle} {reply : c.call.Reply} {progress : Progress Activity Ending}
    (step : Step s (.resumes (.cycle c) reply progress) t) :
    ∃ ends : Progress Cycle Outcome, progress = ends.map .cycle .cycle ∧
      Cycle.Concludes s.engine (t.engine, ends) := by
  obtain ⟨before, after, -, rfl, rfl⟩ := step.of_resumes
  exact ⟨_, rfl, c.resume_concludes s.engine reply⟩

theorem Step.same_outlook (step : Step s act t) (mine : act.badge? = some badge)
    (goesOn : act.GoesOn) : t.engine.outlook = s.engine.outlook := by
  cases act with
  | starts demand a =>
    cases step
    exact demand.start_outlook s.engine
  | resets => cases mine
  | resumes a reply progress =>
    cases a with
    | click c => cases mine
    | cycle c =>
      obtain ⟨ends, rfl, concludes⟩ := step.concludes
      cases concludes with
      | goesOn same => exact same
      | dropped | fails | renders => exact goesOn.elim

theorem Step.concludes_ended {c : Cycle} {reply : c.call.Reply} {outcome : Outcome}
    (step : Step s (.resumes (.cycle c) reply (.ended (.cycle outcome))) t) :
    Cycle.Concludes s.engine (t.engine, .ended outcome) := by
  obtain ⟨ends, same, concludes⟩ := step.concludes
  cases ends with
  | waits next => cases same
  | ended outcome' =>
    obtain rfl : outcome = outcome' := by simpa [Progress.map] using same
    exact concludes

theorem Step.reported {c : Cycle} {reply : c.call.Reply} {outcome : Outcome}
    (step : Step s (.resumes (.cycle c) reply (.ended (.cycle outcome))) t) :
    outcome.Reported (notices ⟨s, .resumes (.cycle c) reply (.ended (.cycle outcome)), t⟩)
      t.engine.outlook.lastError := by
  cases step.concludes_ended with
  | dropped same =>
    rw [step.no_notices same]
    exact .superseded _
  | fails f outlook =>
    rw [step.notices_of_messages (congrArg Outlook.messages outlook), outlook]
    exact .failed f
  | renders pages p positions areTold outlook =>
    have silent : positions.filterMap Event.notice? = [] :=
      List.filterMap_eq_nil_iff.mpr fun event mem => areTold event mem ▸ rfl
    rw [step.notices_of_messages (congrArg Outlook.messages outlook), outlook, silent]
    exact .rendered _

def Act.Passes (act : Act) : Prop :=
  ∃ source ticket diagnostics progress,
    act = .resumes (.cycle (.compiling source ticket)) (.ok diagnostics) progress

def Act.Refuses (act : Act) : Prop :=
  ∃ source ticket diagnostics,
    act = .resumes (.cycle (.compiling source ticket)) (.error (.compile diagnostics))
      (.ended (.cycle (.failed .compile)))

/-- A cycle finds out about the source from the answer of its compile only. -/
theorem Step.findings_of_compile (step : Step s act t) (mine : act.badge? = some badge) :
    t.engine.findings = s.engine.findings ∨ act.Passes ∨ act.Refuses := by
  cases step with
  | starts demand => exact .inl (demand.start_findings s.engine)
  | resets => cases mine
  | @resumes before after a waits reply =>
    cases a with
    | click c => cases mine
    | cycle c =>
      rcases c.resume_findings s.engine reply with same | ⟨diagnostics, reports, current, -⟩
      · exact .inl same
      · refine .inr ?_
        cases reports with
        | passed source ticket => exact .inl ⟨source, ticket, diagnostics, _, rfl⟩
        | refused source ticket =>
          refine .inr ⟨source, ticket, diagnostics, ?_⟩
          simp [Activity.resume, Cycle.resume, current, Engine.afterCompile, Engine.fail,
            Failure.kind, Progress.map]

def ChangesFindings (move : Move BusyEngine Act) : Prop :=
  move.after.engine.state.diagnostics ≠ move.before.engine.state.diagnostics ∨
    move.after.engine.state.markers ≠ move.before.engine.state.markers

/-! ## Cycles that have ended -/

section Ended

variable {c : Cycle} {reply : c.call.Reply} {outcome : Outcome} {u v : BusyEngine}

/-- All that the user sees and is told of a cycle that has ended is in its last move. -/
theorem movesOf_quiet (run : Run Step (.idle engine) moves s)
    (ends : ⟨u, .resumes (.cycle c) reply (.ended (.cycle outcome)), v⟩ ∈ moves) :
    ∃ earlier, movesOf c.badge moves =
        earlier ++ [⟨u, .resumes (.cycle c) reply (.ended (.cycle outcome)), v⟩] ∧
      (∀ move ∈ earlier, move.after.engine.outlook = move.before.engine.outlook) ∧
      (movesOf c.badge moves).flatMap notices =
        notices ⟨u, .resumes (.cycle c) reply (.ended (.cycle outcome)), v⟩ := by
  obtain ⟨earlier, own, course⟩ := movesOf_ended run ends
  have same : ∀ move ∈ earlier, move.after.engine.outlook = move.before.engine.outlook := by
    intro move mem
    have member : move ∈ movesOf c.badge moves := own ▸ List.mem_append_left _ mem
    obtain ⟨goesOn, step⟩ := course move mem
    exact step.same_outlook (mem_movesOf.mp member).2 goesOn
  have silent : earlier.flatMap notices = [] :=
    List.flatMap_eq_nil_iff.mpr fun move mem => (course move mem).2.no_notices (same move mem)
  refine ⟨earlier, own, same, ?_⟩
  rw [own, List.flatMap_append, silent]
  simp

theorem kept_unless_rendered (run : Run Step (.idle engine) moves s)
    (ends : ⟨u, .resumes (.cycle c) reply (.ended (.cycle outcome)), v⟩ ∈ moves)
    (unrendered : ∀ report, outcome ≠ .rendered report) :
    ∀ move ∈ movesOf c.badge moves,
      move.after.engine.state.pages = move.before.engine.state.pages ∧
      move.after.engine.state.position = move.before.engine.state.position := by
  obtain ⟨earlier, own, same, -⟩ := movesOf_quiet run ends
  obtain ⟨_, _, step⟩ := run.reach ends
  intro move mem
  rw [own, List.mem_append, List.mem_singleton] at mem
  rcases mem with mem | rfl
  · exact ⟨congrArg Outlook.pages (same move mem), congrArg Outlook.position (same move mem)⟩
  · cases step.concludes_ended with
    | dropped same => exact ⟨congrArg Outlook.pages same, congrArg Outlook.position same⟩
    | fails f outlook => exact ⟨congrArg Outlook.pages outlook, congrArg Outlook.position outlook⟩
    | renders => exact absurd rfl (unrendered _)

/-- A cycle that has failed found out about the source only when its compile passed, or if
    its compile refused the source and this is the failure. -/
theorem findings_of_failed (run : Run Step (.idle engine) moves s) {kind : FailureKind}
    (ends : ⟨u, .resumes (.cycle c) reply (.ended (.cycle (.failed kind))), v⟩ ∈ moves)
    {move : Move BusyEngine Act} (mem : move ∈ movesOf c.badge moves)
    (changed : ChangesFindings move) :
    move.act.Passes ∨ kind = .compile ∧ move.act.Refuses := by
  obtain ⟨member, mine⟩ := mem_movesOf.mp mem
  obtain ⟨_, _, step⟩ := run.reach member
  rcases step.findings_of_compile mine with same | passes | refuses
  · rcases changed with diagnostics | markers
    · exact absurd (congrArg Findings.diagnostics same) diagnostics
    · exact absurd (congrArg Findings.markers same) markers
  · exact .inl passes
  · refine .inr ⟨?_, refuses⟩
    -- a refusal ends the cycle, so this is its last move and the failure is that of the compile
    obtain ⟨source, ticket, diagnostics, act⟩ := refuses
    obtain ⟨earlier, own, course⟩ := movesOf_ended run ends
    rw [own, List.mem_append, List.mem_singleton] at mem
    rcases mem with mem | rfl
    · exact absurd (course move mem).1 (act ▸ id)
    · cases act
      rfl

/-- In whatever order operations start and go on, and whatever is replied: a cycle that has
    failed or is superseded changed pages and position in none of its moves.  A failed cycle
    notified once, of the failure that is stored then; others notified nothing, and nothing is
    stored after a render.  If a failed cycle changed diagnostics or markers, this was when its
    compile passed, or its compile refused the source. -/
theorem outcome_of_moves (run : Run Step (.idle engine) moves s)
    (ends : ⟨u, .resumes (.cycle c) reply (.ended (.cycle outcome)), v⟩ ∈ moves) :
    ((∀ report, outcome ≠ .rendered report) → ∀ move ∈ movesOf c.badge moves,
      move.after.engine.state.pages = move.before.engine.state.pages ∧
      move.after.engine.state.position = move.before.engine.state.position) ∧
    outcome.Reported ((movesOf c.badge moves).flatMap notices) v.engine.state.lastError ∧
    ∀ kind, outcome = .failed kind → ∀ move ∈ movesOf c.badge moves, ChangesFindings move →
      move.act.Passes ∨ kind = .compile ∧ move.act.Refuses := by
  refine ⟨kept_unless_rendered run ends, ?_, ?_⟩
  · obtain ⟨_, -, -, told⟩ := movesOf_quiet run ends
    obtain ⟨_, _, step⟩ := run.reach ends
    exact told ▸ step.reported
  · rintro kind rfl move mem changed
    exact findings_of_failed run ends mem changed

end Ended

end Moves

attribute [local instance] pngDecoder

/-- One page is displayed, and a compile leads to two, of which the last is no image.  The
    one before it is in the cache, but the page is displayed as before, and the failure is
    notified once. -/
theorem last_page_broken : ∃ engine moves s u c reply, ∃ f : Failure,
    Run Step (.idle engine) moves s ∧
    ⟨u, .resumes (.cycle c) reply (.ended (.cycle (.failed .decode))), s⟩ ∈ moves ∧
    u.engine.state.pages.length = 1 ∧ s.engine.state.pages = u.engine.state.pages ∧
    s.engine.state.position = u.engine.state.position ∧ s.engine.state.cache.size = 1 ∧
    f.kind = .decode ∧ (movesOf c.badge moves).flatMap notices = [(.error, f.message)] ∧
    s.engine.state.lastError = some f.message := by
  let source : Snapshot := ⟨default, "", 0⟩
  let r : Render := ⟨source, some ⟨1⟩, ⟨1⟩⟩
  let c : Cycle := .fetchingAll r none
  let pages : List Page := [⟨0, 1, 1, Toy.pagePng ""⟩, ⟨1, 1, 1, .empty⟩]
  let shown : Slot := ⟨.of (Toy.pagePng "") 0, Toy.draw ""⟩
  let engine : Engine :=
    { Engine.start 4 with state := { State.empty 4 with pages := [shown] } }
  have nothing : Run Step (.idle engine) [] _ := .nil
  have compiled := ((nothing.snoc (.starts _ (.compile source))).snoc
    (.resumes [] (a := .cycle (.persisting source ⟨1⟩)) rfl (.ok ()))).snoc
    (.resumes [] (a := .cycle (.compiling source ⟨1⟩)) rfl (.ok []))
  have fetching := (compiled.snoc
    (.resumes [] (a := .cycle (.locating r)) rfl (.ok none))).snoc
    (.resumes [] (a := .cycle (.counting r none)) rfl (.ok 2))
  obtain ⟨moves, u, run, waits, displayed, fails, cached⟩ : ∃ moves u,
      Run Step (.idle engine) moves u ∧ u.waiting = [] ++ .cycle c :: [] ∧
      u.engine.state.pages.length = 1 ∧
      ((Activity.cycle c).resume u.engine (.ok pages)).2 = .ended (.cycle (.failed .decode)) ∧
      ((Activity.cycle c).resume u.engine (.ok pages)).1.state.cache.size = 1 :=
    ⟨_, _, fetching, by decide +kernel⟩
  obtain ⟨t, step, engine⟩ : ∃ t, Step u (.resumes (.cycle c) (.ok pages)
      (.ended (.cycle (.failed .decode)))) t ∧
      t.engine = ((Activity.cycle c).resume u.engine (.ok pages)).1 :=
    ⟨_, fails ▸ Step.resumes (a := .cycle c) [] waits (.ok pages), rfl⟩
  have failed := run.snoc step
  have ends := List.mem_append_right moves (List.mem_singleton_self
    (⟨u, .resumes (.cycle c) (.ok pages) (.ended (.cycle (.failed .decode))), t⟩ :
      Move BusyEngine Act))
  obtain ⟨kept, reported, -⟩ := outcome_of_moves failed ends
  obtain ⟨f, kind, once, stored⟩ := reported.of_failed
  obtain ⟨same, position⟩ := kept (fun _ rendered => nomatch rendered) _
    (mem_movesOf.mpr ⟨ends, rfl⟩)
  exact ⟨_, _, t, u, c, _, f, failed, ends, displayed, same, position, engine ▸ cached, kind,
    once, stored⟩

end BusyEngine

end Preview

end LivePreview
