import LivePreview.Page.Decoder
import LivePreview.Proofs.Preview.Keys
import LivePreview.Proofs.Preview.Placement

/-!
# Following the events to a page

Who only reads the events is on the page of the position that was told last, or on the first page
if none was told.  Renders and clicks tell of every page that they turn to (`Outlook.Follows`).  A
reset returns to the first page and does not tell of it, so that the reader stays where the old
document was (`reset_leaves_reader_behind`).  This is the only way to lose the page of the preview,
and the next position that is told ends it (`page_pointed_or_reset`).
-/

namespace LivePreview

/-- The page that a reader on `page` is on once the event is read. -/
def Event.pointed (page : Nat) : Event → Nat
  | .positionChanged p => p.page
  | _ => page

namespace Preview

/-- The page that a reader on `page` is on once all that is told is read. -/
def pagePointed (page : Nat) (told : List Event) : Nat :=
  told.foldl Event.pointed page

theorem pagePointed_append (page : Nat) (told more : List Event) :
    pagePointed page (told ++ more) = pagePointed (pagePointed page told) more :=
  List.foldl_append

/-- Only messages point at pages. -/
theorem pagePointed_messages (page : Nat) (told : List Event) :
    pagePointed page (told.filter Event.isMessage) = pagePointed page told := by
  induction told generalizing page with
  | nil => rfl
  | cons event told inductionHypothesis =>
    cases event <;> exact inductionHypothesis _

/-- Where nothing tells of a position, the reader stays. -/
theorem pagePointed_of_silent {page : Nat} {told : List Event}
    (silent : ∀ p, .positionChanged p ∉ told) : pagePointed page told = page := by
  induction told with
  | nil => rfl
  | cons event told inductionHypothesis =>
    have stays : event.pointed page = page := by
      cases event with
      | positionChanged p => exact absurd (List.mem_cons_self ..) (silent p)
      | _ => rfl
    refine (congrArg (pagePointed · told) stays).trans (inductionHypothesis fun p mem => ?_)
    exact silent p (List.mem_cons_of_mem _ mem)

/-- Once a position is told, it does not matter where the reader was. -/
theorem pagePointed_of_position {told : List Event} {p : Position}
    (mem : .positionChanged p ∈ told) (page page' : Nat) :
    pagePointed page told = pagePointed page' told := by
  obtain ⟨earlier, later, rfl⟩ := List.append_of_mem mem
  rw [pagePointed_append, pagePointed_append]
  rfl

/-! ## Renders and clicks -/

/-- Who has read the messages so far is led to the page of the position. -/
def Outlook.Follows (o o' : Outlook) : Prop :=
  ∃ told, o'.messages = o.messages ++ told ∧
    o'.position.page = pagePointed o.position.page told

theorem Outlook.Follows.of_same {o o' : Outlook} (same : o' = o) : o.Follows o' := by
  subst same
  exact ⟨[], (List.append_nil _).symm, rfl⟩

theorem Outlook.Follows.failed {o o' : Outlook} {f : Failure} (fails : o' = o.failed f) :
    o.Follows o' := by
  subst fails
  exact ⟨[.notify .error f.message], rfl, rfl⟩

namespace Engine

/-- An event that leads from `page` to the page of the engine. -/
theorem emit_follows (e : Engine) {o : Outlook} {event : Event}
    (messages : e.outlook.messages = o.messages)
    (leads : e.state.position.page = event.pointed o.position.page) :
    o.Follows (e.emit event).outlook := by
  refine ⟨[event].filter Event.isMessage, by rw [emit_outlook, messages], ?_⟩
  rw [pagePointed_messages]
  exact leads

theorem afterSplice_follows (e : Engine) (cursor : Option Position) (plan : Plan)
    (spliced : Spliced) : e.outlook.Follows (e.afterSplice cursor plan spliced).1.outlook := by
  obtain ⟨p, told, positions, outlook⟩ := e.afterSplice_outlook cursor plan spliced
  rw [outlook]
  rcases positions with rfl | ⟨rfl, same⟩
  · exact ⟨[.positionChanged p], rfl, rfl⟩
  · simp only [Position.samePoint, Bool.and_eq_true, beq_iff_eq] at same
    exact ⟨[], rfl, same.1.1⟩

theorem endRender_follows [ImageDecoder] {e : Engine} {c : Cycle} {reply : c.call.Reply}
    {plan : Plan} {splice : SpliceResult} (splices : Cycle.Splices e c reply plan splice)
    (cursor : Option Position) : e.outlook.Follows (e.endRender cursor plan splice).1.outlook := by
  obtain ⟨cache, slots, frame⟩ := splices.frame
  obtain ⟨e', spliced⟩ : ∃ e' : Engine,
      e' = ({ e with state := splice.state } : Engine).say splice.lines := ⟨_, rfl⟩
  have position : e'.outlook.position = e.outlook.position := by
    rw [spliced, say_outlook, frame]
    rfl
  have messages : e'.outlook.messages = e.outlook.messages := by
    rw [spliced, say_outlook]
    rfl
  have shifted {o : Outlook} (follows : e'.outlook.Follows o) : e.outlook.Follows o := by
    obtain ⟨told, added, page⟩ := follows
    exact ⟨told, messages ▸ added, position ▸ page⟩
  unfold endRender
  rw [← spliced]
  apply shifted
  split
  · exact .failed (e'.fail_outlook _)
  · exact e'.afterSplice_follows ..

theorem follow_follows (e : Engine) (jump : Jump) : e.outlook.Follows (e.follow jump).outlook := by
  cases jump with
  | file file position => exact .of_same rfl
  | position target =>
    exact emit_follows
      { e with state := { e.state with position := target.clamp e.state.pages.length } } rfl rfl
  | url url => exact e.emit_follows rfl rfl
  | nowhere => exact e.emit_follows rfl rfl

/-- A reset returns to the first page. -/
theorem reset_page (e : Engine) : e.reset.state.position.page = 0 :=
  congrArg (fun o => o.position.page) e.reset_outlook

/-- A reset does not tell of a page. -/
theorem reset_pointed (e : Engine) (page : Nat) :
    pagePointed page e.reset.events = pagePointed page e.events := by
  rw [← pagePointed_messages, ← pagePointed_messages page e.events]
  exact congrArg (fun o => pagePointed page o.messages) e.reset_outlook

end Engine

theorem Cycle.Takes.follows [ImageDecoder] {e : Engine} {c : Cycle} {reply : c.call.Reply}
    {step : CycleStep} (takes : Takes e c reply step) : e.outlook.Follows step.1.outlook := by
  cases takes with
  | passed => exact .of_same (by simp)
  | written | located => exact .of_same rfl
  | nowhere | wantsAll | wantsOne => exact .of_same (e.say_outlook _)
  | fetchedAll r cursor pages => exact Engine.endRender_follows (.all r cursor pages) cursor
  | fetchedOne r cursor page => exact Engine.endRender_follows (.one r cursor page) cursor
  | unwritten source ticket f | uncompiled source ticket f => exact .failed (f := f) (by simp)
  | refused source ticket diagnostics => exact .failed (f := .compile diagnostics) (by simp)
  | _ => exact .failed (e.fail_outlook _)

theorem Cycle.resume_follows [ImageDecoder] (c : Cycle) (e : Engine) (reply : c.call.Reply) :
    e.outlook.Follows (c.resume e reply).1.outlook := by
  have resumes := c.resumes e reply
  generalize c.resume e reply = step at resumes ⊢
  cases resumes with
  | dropped => exact .of_same (e.say_outlook _)
  | inTime current takes => exact takes.follows

theorem Click.resume_follows (c : Click) (e : Engine) (reply : Except Failure Jump) :
    e.outlook.Follows (c.resume e reply).1.outlook := by
  unfold Click.resume
  split
  · exact .of_same (e.say_outlook _)
  · split
    · rw [← e.say_outlook]
      exact Engine.emit_follows _ rfl rfl
    · rw [← e.say_outlook]
      exact Engine.follow_follows _ _

namespace BusyEngine

section Moves

variable [ImageDecoder] {s t : BusyEngine} {act : Act}

theorem Step.follows (step : Step s act t) (kept : act ≠ .resets) :
    s.engine.outlook.Follows t.engine.outlook := by
  cases step with
  | starts demand => exact .of_same (demand.start_outlook s.engine)
  | resets => exact absurd rfl kept
  | @resumes before after a waits reply =>
    cases a with
    | cycle c => exact c.resume_follows s.engine reply
    | click c => exact c.resume_follows s.engine reply

/-- Unless the engine is reset, a step tells of the page that it turns to. -/
theorem Step.page_pointed (step : Step s act t) (kept : act ≠ .resets) :
    t.engine.state.position.page =
      pagePointed s.engine.state.position.page (told ⟨s, act, t⟩) := by
  obtain ⟨added, messages, page⟩ := step.follows kept
  rw [← pagePointed_messages, step.messages_told messages]
  exact page

/-- In whatever order operations start and go on: the page of the preview is the one that was told
    last, or the first one if none was told; or the engine was reset and no position was told since,
    and then it is the first one, wherever a reader of the events is. -/
theorem page_pointed_or_reset {cacheCapacity : Nat} {moves : List (Move BusyEngine Act)}
    (run : Run Step (.idle (.start cacheCapacity)) moves s) :
    s.engine.state.position.page = pagePointed 0 s.engine.events ∨
    s.engine.state.position.page = 0 ∧ ∃ before reset after, moves = before ++ reset :: after ∧
      reset.act = .resets ∧ ∀ move ∈ after, ∀ p, .positionChanged p ∉ told move := by
  refine run.keeps (P := fun moves s =>
    s.engine.state.position.page = pagePointed 0 s.engine.events ∨
    s.engine.state.position.page = 0 ∧ ∃ before reset after, moves = before ++ reset :: after ∧
      reset.act = .resets ∧ ∀ move ∈ after, ∀ p, .positionChanged p ∉ told move) (.inl rfl) ?_
  intro moves s act t known step
  by_cases resets : act = .resets
  · subst resets
    cases step
    exact .inr ⟨s.engine.reset_page, moves, _, [], rfl, rfl, fun _ mem => nomatch mem⟩
  · have page := step.page_pointed resets
    rw [step.tells.events, pagePointed_append]
    rcases known with follows | ⟨first, before, reset, after, rfl, resetAct, silent⟩
    · exact .inl (follows ▸ page)
    · by_cases told : ∃ p, .positionChanged p ∈ told ⟨s, act, t⟩
      · obtain ⟨p, mem⟩ := told
        exact .inl (page.trans (pagePointed_of_position mem _ _))
      · rw [not_exists] at told
        rw [pagePointed_of_silent told, first] at page
        refine .inr ⟨page, before, reset, after ++ [⟨s, act, t⟩], by simp, resetAct, ?_⟩
        simp only [List.mem_append, List.mem_singleton]
        rintro move (mem | rfl)
        · exact silent move mem
        · exact told

end Moves

attribute [local instance] pngDecoder

/-- Two pages are displayed, and a click leads to the second. -/
theorem second_page_told : ∃ moves s, Run Step (.idle (.start 4)) moves s ∧
    pagePointed 0 s.engine.events = 1 := by
  let r : Render := ⟨⟨default, "", 0⟩, none, ⟨1⟩⟩
  let click : Click := ⟨⟨1⟩, "", 0, 0, 0⟩
  let target : Position := ⟨1, 0, 0⟩
  let pages : List Page := [⟨0, 1, 1, Toy.pagePng ""⟩, ⟨1, 1, 1, Toy.pagePng ""⟩]
  have nothing : Run Step (.idle (.start 4)) [] _ := .nil
  have rendered := ((((nothing.snoc (.starts _ (.render r.source))).snoc
    (.resumes [] (a := .cycle (.locating r)) rfl (.ok none))).snoc
    (.resumes [] (a := .cycle (.counting r none)) rfl (.ok 2))).snoc
    (.resumes [] (a := .cycle (.fetchingAll r none)) rfl (.ok pages))).snoc
    (.starts _ (.click "" 0 0 0))
  obtain ⟨moves, u, run, waits, current, shown⟩ : ∃ moves u, Run Step (.idle (.start 4)) moves u ∧
      u.waiting = [] ++ .click click :: [] ∧ click.isStale u.engine = false ∧
      u.engine.state.pages.length = 2 :=
    ⟨_, _, rendered, by decide +kernel⟩
  obtain ⟨progress, t, step, engine⟩ : ∃ progress t,
      Step u (.resumes (.click click) (.ok (.position target)) progress) t ∧
      t.engine = (click.resume u.engine (.ok (.position target))).1 :=
    ⟨_, _, .resumes [] waits (.ok (.position target)), rfl⟩
  have events : t.engine.events = u.engine.events ++ [.positionChanged (target.clamp 2)] := by
    simp [engine, Click.resume, current, checkJump, Engine.follow, shown]
  refine ⟨_, t, run.snoc step, ?_⟩
  rw [events, pagePointed_append]
  rfl

/-- The engine is reset when the second page was told.  Whoever reads the events is on the second
    page, and the preview is on the first. -/
theorem reset_leaves_reader_behind : ∃ moves s, Run Step (.idle (.start 4)) moves s ∧
    pagePointed 0 s.engine.events = 1 ∧ s.engine.state.position.page = 0 := by
  obtain ⟨moves, s, run, pointed⟩ := second_page_told
  exact ⟨_, _, run.snoc (.resets s), s.engine.reset_pointed 0 ▸ pointed, s.engine.reset_page⟩

/-- A page that is not the one that was told comes from a reset. -/
theorem lost_page_traced : ∃ moves s, Run Step (.idle (.start 4)) moves s ∧
    pagePointed 0 s.engine.events = 1 ∧ s.engine.state.position.page = 0 ∧
    ∃ before reset after, moves = before ++ reset :: after ∧ reset.act = .resets ∧
      ∀ move ∈ after, ∀ p, .positionChanged p ∉ told move := by
  obtain ⟨moves, s, run, pointed⟩ := second_page_told
  have last := run.snoc (.resets s)
  have behind : pagePointed 0 s.engine.reset.events = 1 := s.engine.reset_pointed 0 ▸ pointed
  rcases page_pointed_or_reset last with same | ⟨first, reset⟩
  · exact absurd (behind.symm.trans (same.symm.trans s.engine.reset_page)) Nat.one_ne_zero
  · exact ⟨_, _, last, behind, first, reset⟩

end BusyEngine

end Preview

end LivePreview
