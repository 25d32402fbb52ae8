import LivePreview.Preview.Click

/-!
# What the steps of the engine can do

Every step is put together from a few moves of the engine: it says something, enters
a phase, stores a failure, shows diagnostics.  For each of them this module states
what becomes of the state, of the counters and of the events.  `counters` are the
three sequences of tickets at once, since hardly a move touches them.

How a cycle is put together from these moves is told once: `Cycle.Takes` has a case for
each way in which a cycle takes a reply.  Whatever all replies keep is proved by going
through these cases.
-/

namespace LivePreview.Preview

/-- The three sequences of tickets. -/
structure Counters where
  compiles : Sequence
  renders : Sequence
  clicks : Sequence
  deriving DecidableEq, Repr

namespace Engine

/-- The sequences of an engine. -/
def counters (e : Engine) : Counters :=
  ⟨e.compiles, e.renders, e.clicks⟩

/-- The events recorded so far. -/
def events (e : Engine) : List Event :=
  eventsOf e.notes

@[simp] theorem eventsOf_append (notes more : List Note) :
    eventsOf (notes ++ more) = eventsOf notes ++ eventsOf more :=
  List.filterMap_append

@[simp] theorem eventsOf_logs (lines : List Console.LogLine) :
    eventsOf (lines.map Note.log) = [] := by
  induction lines with
  | nil => rfl
  | cons line lines inductionHypothesis => simp [eventsOf]

/-! ## Saying something -/

@[simp] theorem notify_eq (e : Engine) (level : Level) (message : String) :
    e.notify level message = e.emit (.notify level message) := rfl

@[simp] theorem log_eq (e : Engine) (topic message : String) :
    e.log topic message = e.say [.log topic message] := rfl

@[simp] theorem debug_eq (e : Engine) (topic message : String) :
    e.debug topic message = e.say [.debug topic message] := rfl

@[simp] theorem emit_state (e : Engine) (event : Event) : (e.emit event).state = e.state := rfl

@[simp] theorem emit_counters (e : Engine) (event : Event) :
    (e.emit event).counters = e.counters := rfl

@[simp] theorem emit_events (e : Engine) (event : Event) :
    (e.emit event).events = e.events ++ [event] := by
  simp [events, emit, eventsOf]

theorem say_nil (e : Engine) : e.say [] = e := by
  simp [say]

@[simp] theorem say_state (e : Engine) (lines : List Console.LogLine) :
    (e.say lines).state = e.state := rfl

@[simp] theorem say_counters (e : Engine) (lines : List Console.LogLine) :
    (e.say lines).counters = e.counters := rfl

@[simp] theorem say_events (e : Engine) (lines : List Console.LogLine) :
    (e.say lines).events = e.events := by
  simp [events, say]

/-- Another state changes no counter. -/
@[simp] theorem withState_counters (e : Engine) (state : State) :
    ({ e with state } : Engine).counters = e.counters := rfl

@[simp] theorem withState_events (e : Engine) (state : State) :
    ({ e with state } : Engine).events = e.events := rfl

/-! ## Phases -/

@[simp] theorem setPhase_state (e : Engine) (phase : Phase) :
    (e.setPhase phase).state = { e.state with phase } := by
  simp only [setPhase]
  split <;> rfl

@[simp] theorem setPhase_counters (e : Engine) (phase : Phase) :
    (e.setPhase phase).counters = e.counters := by
  simp only [setPhase]
  split <;> rfl

@[simp] theorem settlePhase_state (e : Engine) :
    e.settlePhase.state =
      { e.state with phase := if e.state.pendingCompile.isSome then .compiling else .idle } :=
  setPhase_state ..

@[simp] theorem settlePhase_counters (e : Engine) : e.settlePhase.counters = e.counters :=
  setPhase_counters ..

/-! ## Failures, diagnostics and splices -/

@[simp] theorem fail_progress (e : Engine) (f : Failure) :
    (e.fail f).2 = .ended (.failed f.kind) := rfl

@[simp] theorem fail_counters (e : Engine) (f : Failure) : (e.fail f).1.counters = e.counters := by
  simp [fail]

@[simp] theorem fail_state (e : Engine) (f : Failure) :
    (e.fail f).1.state =
      { e.state with
        lastError := some f.message
        phase := if e.state.pendingCompile.isSome then .compiling else .idle } := by
  simp [fail]

@[simp] theorem finishCompile_counters (e : Engine) (ticket : Ticket) :
    (e.finishCompile ticket).counters = e.counters := by
  unfold finishCompile
  split <;> rfl

@[simp] theorem replaceDiagnostics_counters (e : Engine) (source : Snapshot)
    (diagnostics : List Diagnostic) :
    (e.replaceDiagnostics source diagnostics).counters = e.counters := rfl

@[simp] theorem afterSplice_counters (e : Engine) (cursor : Option Position) (plan : Plan)
    (spliced : Spliced) : (e.afterSplice cursor plan spliced).1.counters = e.counters := by
  simp only [afterSplice, debug_eq, say_counters, settlePhase_counters]
  split <;> split <;> simp

@[simp] theorem endRender_counters (e : Engine) (cursor : Option Position) (plan : Plan)
    (splice : SpliceResult) : (e.endRender cursor plan splice).1.counters = e.counters := by
  simp only [endRender]
  split <;> simp

@[simp] theorem follow_counters (e : Engine) (jump : Jump) :
    (e.follow jump).counters = e.counters := by
  cases jump <;> simp [follow]

/-- The end of a render waits for nothing more. -/
theorem endRender_progress (e : Engine) (cursor : Option Position) (plan : Plan)
    (splice : SpliceResult) : ∃ outcome, (e.endRender cursor plan splice).2 = .ended outcome := by
  unfold endRender
  split
  · exact ⟨_, rfl⟩
  · exact ⟨_, rfl⟩

/-! ## Starts and resets -/

theorem startCompile_counters (e : Engine) (source : Snapshot) :
    (e.startCompile source).1.counters =
      { e.counters with compiles := ⟨e.counters.compiles.latest + 1⟩ } := by
  simp [startCompile, counters, Sequence.issue, setPhase, say]
  split <;> simp [emit]

theorem startCompile_cycle (e : Engine) (source : Snapshot) :
    (e.startCompile source).2 = .persisting source ⟨e.counters.compiles.latest + 1⟩ := rfl

theorem startRender_counters (e : Engine) (source : Snapshot) (compile : Option Ticket) :
    (e.startRender source compile).1.counters =
      { e.counters with renders := ⟨e.counters.renders.latest + 1⟩ } := by
  simp only [startRender, setPhase_counters]
  rfl

theorem startRender_cycle (e : Engine) (source : Snapshot) (compile : Option Ticket) :
    (e.startRender source compile).2 =
      .locating ⟨source, compile, ⟨e.counters.renders.latest + 1⟩⟩ := rfl

theorem startClick_counters (e : Engine) (text : String) (page : Nat) (x y : Float) :
    (e.startClick text page x y).1.counters =
      { e.counters with clicks := ⟨e.counters.clicks.latest + 1⟩ } := rfl

theorem startClick_click (e : Engine) (text : String) (page : Nat) (x y : Float) :
    (e.startClick text page x y).2 = ⟨⟨e.counters.clicks.latest + 1⟩, text, page, x, y⟩ := rfl

theorem reset_counters (e : Engine) :
    e.reset.counters =
      ⟨e.counters.compiles.invalidate, e.counters.renders.invalidate,
        e.counters.clicks.invalidate⟩ := by
  simp only [reset, setPhase_counters, emit_counters, debug_eq, say_counters]
  rfl

end Engine

/-! ## How a cycle takes a reply -/

namespace Cycle

variable [ImageDecoder]

/-- `Takes e c reply step`: with the engine at `e`, a reply in time takes the cycle `c` to
    where `step` says.  What is said to the log on the way is left open. -/
inductive Takes (e : Engine) : (c : Cycle) → c.call.Reply → CycleStep → Prop
  | unwritten (source : Snapshot) (ticket : Ticket) (f : Failure) :
      Takes e (.persisting source ticket) (.error f) ((e.finishCompile ticket).fail f)
  | written (source : Snapshot) (ticket : Ticket) :
      Takes e (.persisting source ticket) (.ok ()) (e, .waits (.compiling source ticket))
  | passed (source : Snapshot) (ticket : Ticket) (diagnostics : List Diagnostic)
      (lines : List Console.LogLine) :
      Takes e (.compiling source ticket) (.ok diagnostics)
        (((((e.finishCompile ticket).say lines).replaceDiagnostics source
            diagnostics).startRender source (some ticket)).1,
          .waits (.locating ⟨source, some ticket, ⟨e.counters.renders.latest + 1⟩⟩))
  /-- A source that is refused still shows where it went wrong. -/
  | refused (source : Snapshot) (ticket : Ticket) (diagnostics : List Diagnostic) :
      Takes e (.compiling source ticket) (.error (.compile diagnostics))
        (((e.finishCompile ticket).replaceDiagnostics source diagnostics).fail
          (.compile diagnostics))
  | uncompiled (source : Snapshot) (ticket : Ticket) (f : Failure)
      (other : ∀ diagnostics, f ≠ .compile diagnostics) :
      Takes e (.compiling source ticket) (.error f) ((e.finishCompile ticket).fail f)
  | located (r : Render) (p : Position) :
      Takes e (.locating r) (.ok (some p)) (e, .waits (.counting r (some p)))
  /-- A cursor without a place is no failure. -/
  | nowhere (r : Render) (reply : Except Failure (Option Position))
      (lost : ∀ p, reply ≠ .ok (some p)) (lines : List Console.LogLine) :
      Takes e (.locating r) reply (e.say lines, .waits (.counting r none))
  | uncounted (r : Render) (cursor : Option Position) (f : Failure) :
      Takes e (.counting r cursor) (.error f) (e.fail f)
  | wantsAll (r : Render) (cursor : Option Position) (count : Nat)
      (full : Plan.choose e.state.pages.length count cursor = .full)
      (lines : List Console.LogLine) :
      Takes e (.counting r cursor) (.ok count) (e.say lines, .waits (.fetchingAll r cursor))
  | wantsOne (r : Render) (cursor : Option Position) (count index : Nat)
      (single : Plan.choose e.state.pages.length count cursor = .single index)
      (lines : List Console.LogLine) :
      Takes e (.counting r cursor) (.ok count)
        (e.say lines, .waits (.fetchingPage r cursor index))
  | unfetchedAll (r : Render) (cursor : Option Position) (f : Failure) :
      Takes e (.fetchingAll r cursor) (.error f) (e.fail f)
  | fetchedAll (r : Render) (cursor : Option Position) (pages : List Page) :
      Takes e (.fetchingAll r cursor) (.ok pages)
        (e.endRender cursor .full (spliceAll e.state pages))
  | unfetchedOne (r : Render) (cursor : Option Position) (index : Nat) (f : Failure) :
      Takes e (.fetchingPage r cursor index) (.error f) (e.fail f)
  /-- The page must be the one that was asked for. -/
  | fetchedOther (r : Render) (cursor : Option Position) (index : Nat) (page : Page)
      (other : page.index ≠ index) :
      Takes e (.fetchingPage r cursor index) (.ok page)
        (e.fail (.transport .renderPage s!"asked for page {index}, got page {page.index}"))
  | fetchedOne (r : Render) (cursor : Option Position) (page : Page) :
      Takes e (.fetchingPage r cursor page.index) (.ok page)
        (e.endRender cursor (.single page.index) (spliceOne e.state page))

theorem afterCompile_takes (e : Engine) (source : Snapshot) (ticket : Ticket)
    (reply : Except Failure (List Diagnostic)) :
    Takes e (.compiling source ticket) reply (e.afterCompile source ticket reply) := by
  unfold Engine.afterCompile
  split
  · next diagnostics =>
    obtain ⟨lines, said⟩ : ∃ lines, (if 0 < (Diagnostic.tally diagnostics).2 then
        (e.finishCompile ticket).log "warning"
          s!"{(Diagnostic.tally diagnostics).2} warning(s) in {source.path.text}"
        else e.finishCompile ticket) = (e.finishCompile ticket).say lines := by
      split
      · exact ⟨_, rfl⟩
      · exact ⟨[], (Engine.say_nil _).symm⟩
    have passed := Takes.passed (e := e) source ticket diagnostics lines
    simp only [said, Engine.startRender_cycle, Engine.replaceDiagnostics_counters,
      Engine.say_counters, Engine.finishCompile_counters]
    exact passed
  · next diagnostics => exact .refused source ticket diagnostics
  · next f other => exact .uncompiled source ticket f fun diagnostics same => other diagnostics same

theorem afterLocate_takes (e : Engine) (r : Render) (reply : Except Failure (Option Position)) :
    Takes e (.locating r) reply (e.afterLocate r reply) := by
  unfold Engine.afterLocate
  cases reply with
  | error f => cases f <;> exact .nowhere r _ (by simp) _
  | ok place =>
    cases place with
    | none => exact .nowhere r _ (by simp) _
    | some p => exact .located r p

theorem afterCount_takes (e : Engine) (r : Render) (cursor : Option Position)
    (reply : Except Failure Nat) :
    Takes e (.counting r cursor) reply (e.afterCount r cursor reply) := by
  cases reply with
  | error f => exact .uncounted r cursor f
  | ok count =>
    unfold Engine.afterCount
    dsimp only
    cases plan : Plan.choose e.state.pages.length count cursor with
    | full => exact .wantsAll r cursor count plan _
    | single index => exact .wantsOne r cursor count index plan _

theorem afterFetchPage_takes (e : Engine) (r : Render) (cursor : Option Position) (index : Nat)
    (reply : Except Failure Page) :
    Takes e (.fetchingPage r cursor index) reply (e.afterFetchPage cursor index reply) := by
  cases reply with
  | error f => exact .unfetchedOne r cursor index f
  | ok page =>
    by_cases same : page.index = index
    · subst same
      simp only [Engine.afterFetchPage, ne_eq, not_true_eq_false, if_false]
      exact .fetchedOne r cursor page
    · simp only [Engine.afterFetchPage, ne_eq, same, not_false_eq_true, if_true]
      exact .fetchedOther r cursor index page same

theorem resume_takes {c : Cycle} {e : Engine} (current : c.isStale e = false)
    (reply : c.call.Reply) : Takes e c reply (c.resume e reply) := by
  unfold resume
  rw [if_neg (by rw [current]; exact Bool.false_ne_true)]
  cases c with
  | persisting source ticket =>
    cases reply with
    | error f => exact .unwritten source ticket f
    | ok done => exact .written source ticket
  | compiling source ticket => exact afterCompile_takes ..
  | locating r => exact afterLocate_takes ..
  | counting r cursor => exact afterCount_takes ..
  | fetchingAll r cursor =>
    cases reply with
    | error f => exact .unfetchedAll r cursor f
    | ok pages => exact .fetchedAll r cursor pages
  | fetchingPage r cursor index => exact afterFetchPage_takes ..

/-- `Resumes e c reply step`: a reply in time takes the cycle on or ends it, and one that comes
    too late ends it while only the log gets longer. -/
inductive Resumes (e : Engine) (c : Cycle) (reply : c.call.Reply) : CycleStep → Prop
  | dropped (stale : c.isStale e = true) (lines : List Console.LogLine) :
      Resumes e c reply (e.say lines, .ended .superseded)
  | inTime {step : CycleStep} (current : c.isStale e = false) (takes : Takes e c reply step) :
      Resumes e c reply step

theorem resumes (c : Cycle) (e : Engine) (reply : c.call.Reply) :
    Resumes e c reply (c.resume e reply) := by
  cases stale : c.isStale e with
  | true =>
    unfold resume
    rw [if_pos stale]
    exact .dropped stale _
  | false => exact .inTime stale (resume_takes stale reply)

end Cycle

end LivePreview.Preview
