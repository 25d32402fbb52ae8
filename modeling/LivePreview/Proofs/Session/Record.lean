import LivePreview.Proofs.Session.Frame

/-!
# The record is never read

Operations write into the record of the engine and never look at it.  So a record that was there
before is only carried along: every step does the same with it as without it
(`Action.start_prepend`, `Stage.resume_prepend`).  Two sessions that differ in nothing else go on
in the same way.
-/

namespace LivePreview

namespace Preview

namespace Engine

/-- The engine with an older record before its own. -/
def prepend (notes : List Note) (e : Engine) : Engine :=
  { e with notes := notes ++ e.notes }

variable (notes : List Note) (e : Engine)

@[simp] theorem prepend_state : (e.prepend notes).state = e.state := rfl

@[simp] theorem prepend_compiles : (e.prepend notes).compiles = e.compiles := rfl

@[simp] theorem prepend_renders : (e.prepend notes).renders = e.renders := rfl

@[simp] theorem prepend_clicks : (e.prepend notes).clicks = e.clicks := rfl

@[simp] theorem prepend_notes : (e.prepend notes).notes = notes ++ e.notes := rfl

/-- Whatever else is changed, the older record stays before the own one. -/
theorem mk_prepend (state : State) (compiles renders clicks : Sequence)
    (more : List Note) :
    (⟨state, compiles, renders, clicks, notes ++ more⟩ : Engine) =
      prepend notes ⟨state, compiles, renders, clicks, more⟩ := rfl

@[simp] theorem emit_prepend (event : Event) :
    (e.prepend notes).emit event = (e.emit event).prepend notes := by
  simp [emit, prepend]

@[simp] theorem say_prepend (lines : List Console.LogLine) :
    (e.prepend notes).say lines = (e.say lines).prepend notes := by
  simp [say, prepend]

@[simp] theorem setPhase_prepend (phase : Phase) :
    (e.prepend notes).setPhase phase = (e.setPhase phase).prepend notes := by
  by_cases changed : e.state.phase = phase <;> simp [setPhase, changed, mk_prepend]

@[simp] theorem settlePhase_prepend :
    (e.prepend notes).settlePhase = e.settlePhase.prepend notes := by
  exact setPhase_prepend ..

@[simp] theorem finishCompile_prepend (ticket : Ticket) :
    (e.prepend notes).finishCompile ticket = (e.finishCompile ticket).prepend notes := by
  by_cases own : e.state.pendingCompile = some ticket <;> simp [finishCompile, own, mk_prepend]

@[simp] theorem replaceDiagnostics_prepend (source : Snapshot) (diagnostics : List Diagnostic) :
    (e.prepend notes).replaceDiagnostics source diagnostics =
      (e.replaceDiagnostics source diagnostics).prepend notes := by
  simp [replaceDiagnostics, mk_prepend]

@[simp] theorem startCompile_prepend (source : Snapshot) :
    (e.prepend notes).startCompile source =
      ((e.startCompile source).1.prepend notes, (e.startCompile source).2) := by
  simp [startCompile, mk_prepend]

@[simp] theorem startRender_prepend (source : Snapshot) (compile : Option Ticket) :
    (e.prepend notes).startRender source compile =
      ((e.startRender source compile).1.prepend notes, (e.startRender source compile).2) := by
  simp [startRender, mk_prepend]

@[simp] theorem fail_prepend (f : Failure) :
    (e.prepend notes).fail f = ((e.fail f).1.prepend notes, (e.fail f).2) := by
  simp [fail, mk_prepend]

@[simp] theorem follow_prepend (jump : Jump) :
    (e.prepend notes).follow jump = (e.follow jump).prepend notes := by
  cases jump <;> simp [follow, mk_prepend]

@[simp] theorem reset_prepend : (e.prepend notes).reset = e.reset.prepend notes := by
  simp [reset, mk_prepend]

/-! ## Cycles and clicks -/

@[simp] theorem afterPersist_prepend (source : Snapshot) (ticket : Ticket)
    (reply : Except Failure Unit) :
    (e.prepend notes).afterPersist source ticket reply =
      ((e.afterPersist source ticket reply).1.prepend notes,
        (e.afterPersist source ticket reply).2) := by
  cases reply <;> simp [afterPersist]

@[simp] theorem afterCompile_prepend (source : Snapshot) (ticket : Ticket)
    (reply : Except Failure (List Diagnostic)) :
    (e.prepend notes).afterCompile source ticket reply =
      ((e.afterCompile source ticket reply).1.prepend notes,
        (e.afterCompile source ticket reply).2) := by
  cases reply with
  | ok diagnostics =>
    by_cases warns : 0 < (Diagnostic.tally diagnostics).2 <;> simp [afterCompile, warns]
  | error f => cases f <;> simp [afterCompile]

@[simp] theorem afterLocate_prepend (r : Render) (reply : Except Failure (Option Position)) :
    (e.prepend notes).afterLocate r reply =
      ((e.afterLocate r reply).1.prepend notes, (e.afterLocate r reply).2) := by
  unfold afterLocate
  split <;> simp

@[simp] theorem afterCount_prepend (r : Render) (cursor : Option Position)
    (reply : Except Failure Nat) :
    (e.prepend notes).afterCount r cursor reply =
      ((e.afterCount r cursor reply).1.prepend notes, (e.afterCount r cursor reply).2) := by
  cases reply with
  | error f => simp [afterCount]
  | ok count =>
    cases plan : Plan.choose e.state.pages.length count cursor <;> simp [afterCount, plan]

@[simp] theorem afterSplice_prepend (cursor : Option Position) (plan : Plan) (spliced : Spliced) :
    (e.prepend notes).afterSplice cursor plan spliced =
      ((e.afterSplice cursor plan spliced).1.prepend notes,
        (e.afterSplice cursor plan spliced).2) := by
  by_cases changes : plan = .full ∨ spliced.changed ≠ [] <;>
    by_cases stays : ((cursor.getD e.state.position).clamp e.state.pages.length).samePoint
        e.state.position <;>
      simp [afterSplice, changes, stays, mk_prepend]

@[simp] theorem endRender_prepend (cursor : Option Position) (plan : Plan)
    (splice : SpliceResult) :
    (e.prepend notes).endRender cursor plan splice =
      ((e.endRender cursor plan splice).1.prepend notes, (e.endRender cursor plan splice).2) := by
  cases ends : splice.result <;> simp [endRender, ends, mk_prepend]

variable [ImageDecoder]

@[simp] theorem afterFetchAll_prepend (cursor : Option Position)
    (reply : Except Failure (List Page)) :
    (e.prepend notes).afterFetchAll cursor reply =
      ((e.afterFetchAll cursor reply).1.prepend notes, (e.afterFetchAll cursor reply).2) := by
  cases reply <;> simp [afterFetchAll]

@[simp] theorem afterFetchPage_prepend (cursor : Option Position) (index : Nat)
    (reply : Except Failure Page) :
    (e.prepend notes).afterFetchPage cursor index reply =
      ((e.afterFetchPage cursor index reply).1.prepend notes,
        (e.afterFetchPage cursor index reply).2) := by
  cases reply with
  | error f => simp [afterFetchPage]
  | ok page => by_cases own : page.index = index <;> simp [afterFetchPage, own]

end Engine

theorem Cycle.isStale_prepend (notes : List Note) (e : Engine) (c : Cycle) :
    c.isStale (e.prepend notes) = c.isStale e := by
  cases c <;> rfl

@[simp] theorem Click.resume_prepend (notes : List Note) (e : Engine) (c : Click)
    (reply : Except Failure Jump) :
    c.resume (e.prepend notes) reply =
      ((c.resume e reply).1.prepend notes, (c.resume e reply).2) := by
  unfold Click.resume
  have stale : c.isStale (e.prepend notes) = c.isStale e := rfl
  rw [stale]
  split
  · simp
  · split <;> simp

variable [ImageDecoder]

@[simp] theorem Cycle.resume_prepend (notes : List Note) (e : Engine) (c : Cycle)
    (reply : c.call.Reply) :
    c.resume (e.prepend notes) reply =
      ((c.resume e reply).1.prepend notes, (c.resume e reply).2) := by
  unfold Cycle.resume
  rw [c.isStale_prepend]
  split
  · simp
  · cases c <;> simp

end Preview

namespace Session

open Preview (Click Cycle Note)

/-- The session with an older record before that of its engine. -/
def prepend (notes : List Note) (s : Session) : Session :=
  { s with engine := s.engine.prepend notes }

/-- The session without its record. -/
def unrecorded (s : Session) : Session :=
  { s with engine := s.engine.takeNotes.2 }

variable (notes : List Note) (s : Session)

/-- A session is what it is without its record, with the record put before that. -/
theorem unrecorded_prepend : s.unrecorded.prepend s.engine.notes = s := by
  simp [unrecorded, prepend, Preview.Engine.prepend, Preview.Engine.takeNotes]

@[simp] theorem prepend_engine : (s.prepend notes).engine = s.engine.prepend notes := rfl

@[simp] theorem prepend_root : (s.prepend notes).root = s.root := rfl

@[simp] theorem prepend_main : (s.prepend notes).main = s.main := rfl

@[simp] theorem prepend_buffer : (s.prepend notes).buffer = s.buffer := rfl

@[simp] theorem prepend_saving : (s.prepend notes).saving = s.saving := rfl

@[simp] theorem mk_prepend (engine : Preview.Engine) (root main : Option Path)
    (buffer : Option Buffer) (saving : Bool) :
    (⟨engine.prepend notes, root, main, buffer, saving⟩ : Session) =
      prepend notes ⟨engine, root, main, buffer, saving⟩ := rfl

/-- A step of an operation that carries an older record along. -/
def Step.prepend (step : Step) : Step :=
  (step.1.prepend notes, step.2)

@[simp] theorem Step.prepend_mk (progress : Preview.Progress Stage Result) :
    (s.prepend notes, progress) = Step.prepend notes (s, progress) := rfl

@[simp] theorem prepend_snapshot : (s.prepend notes).snapshot = s.snapshot := rfl

@[simp] theorem prepend_isMain (path : Path) : (s.prepend notes).isMain path = s.isMain path := rfl

@[simp] theorem prepend_isOpen (path : Path) : (s.prepend notes).isOpen path = s.isOpen path := rfl

@[simp] theorem reveal_prepend (path : Path) (position : Nat) :
    (s.prepend notes).reveal path position = (s.reveal path position).prepend notes := by
  cases shown : s.buffer <;> simp [reveal, shown]

/-! ## Starts -/

@[simp] theorem startCompile_prepend (selected : Bool) :
    (s.prepend notes).startCompile selected = (s.startCompile selected).prepend notes := by
  cases shown : s.snapshot <;> simp [startCompile, shown]

@[simp] theorem startRender_prepend :
    (s.prepend notes).startRender = s.startRender.prepend notes := by
  cases shown : s.snapshot <;> simp [startRender, shown]

@[simp] theorem startSetMain_prepend (path : Path) :
    (s.prepend notes).startSetMain path = (s.startSetMain path).prepend notes := by
  by_cases compilable : (DocumentKind.ofPath path).isCompilable <;>
    by_cases chosen : s.isMain path <;> simp [startSetMain, compilable, chosen]

@[simp] theorem endSave_prepend (auto : Option AutoSave) (outcome : SaveOutcome) :
    (s.prepend notes).endSave auto outcome = (s.endSave auto outcome).prepend notes := by
  cases auto <;> rfl

@[simp] theorem startSave_prepend (explicit : Bool) (auto : Option AutoSave) :
    (s.prepend notes).startSave explicit auto = (s.startSave explicit auto).prepend notes := by
  have nothing : startSave.nothingToSave (s.prepend notes) explicit auto =
      (startSave.nothingToSave s explicit auto).prepend notes := by
    cases explicit <;> simp [startSave.nothingToSave]
  unfold startSave
  by_cases saving : s.saving
  · simp [saving]
  · simp only [prepend_saving, saving, prepend_buffer, nothing]
    split
    · contradiction
    · split
      · split <;> rfl
      · rfl

@[simp] theorem startExport_prepend (format : ExportFormat) (output : Path) :
    (s.prepend notes).startExport format output = (s.startExport format output).prepend notes := by
  cases chosen : s.main with
  | none => simp [startExport, chosen]
  | some main =>
    cases own : s.snapshot.filter fun source => source.path.same main <;>
      simp [startExport, chosen, own]

@[simp] theorem startClick_prepend (page : Nat) (x y : Float) :
    (s.prepend notes).startClick page x y = (s.startClick page x y).prepend notes := rfl

theorem Action.start_prepend (action : Action) :
    action.start (s.prepend notes) = (action.start s).prepend notes := by
  cases action <;> simp [start, rest]

/-! ## Replies -/

variable [ImageDecoder]

/-- The answer to a request is taken in the same way, whatever is on record. -/
theorem Stage.resume_prepend (stage : Stage) (reply : stage.request.Reply) :
    stage.resume (s.prepend notes) reply = (stage.resume s reply).prepend notes := by
  cases stage with
  | openingWorkspace path =>
    cases reply <;> simp [resume, afterOpenWorkspace]
  | selecting path =>
    cases reply with
    | error f => simp [resume, afterSelect]
    | ok _ =>
      cases shown : s.buffer <;>
        simp [resume, afterSelect, currentFile, shown]
  | loading path next =>
    cases reply with
    | error e => simp [resume, afterLoad]
    | ok content => cases next <;> simp [resume, afterLoad]
  | creating path text => cases reply <;> simp [resume, afterCreate]
  | cycling cycle selected =>
    simp only [resume, afterCycle, prepend_engine, Cycle.resume_prepend]
    generalize cycle.resume s.engine reply = step
    obtain ⟨engine, _ | _⟩ := step <;> rfl
  | saving save auto =>
    cases reply with
    | error e => simp [resume, afterSave]
    | ok _ => cases explicit : save.explicit <;> simp [resume, afterSave, explicit]
  | resting auto =>
    by_cases goesOn : auto.interval < auto.left <;> simp [resume, afterRest, goesOn]
  | persisting source main format output => cases reply <;> simp [resume, afterPersist]
  | exporting main format output => cases reply <;> simp [resume, afterExport]
  | clicking click =>
    simp only [resume, afterClick, prepend_engine, Click.resume_prepend]
    generalize click.resume s.engine reply = step
    obtain ⟨engine, jump⟩ := step
    simp only [mk_prepend, prepend_root, prepend_main, prepend_buffer, prepend_saving]
    split
    · next path position =>
      simp only [prepend_isOpen, reveal_prepend, Step.prepend_mk]
      split <;> rfl
    · rfl

end Session

end LivePreview
