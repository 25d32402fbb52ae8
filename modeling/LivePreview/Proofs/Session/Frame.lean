import LivePreview.Proofs.Preview.Frame
import LivePreview.Session.Operation

/-!
# What the steps of a session can do

Telling, logging and resetting go to the engine and to nothing else.  What a step can do is told
once: `Starts` has a case for each way in which an operation starts, `Resumes` one for each way in
which it takes an answer, and `SaveBegins` those of a save.  Whatever all steps keep is proved by
going through these cases.
-/

namespace LivePreview.Session

open Preview (Click Cycle Engine Outcome)

variable (s : Session)

@[simp] theorem notify_eq (level : Level) (message : String) :
    s.notify level message = { s with engine := s.engine.emit (.notify level message) } := rfl

@[simp] theorem report_eq (f : Failure) :
    s.report f = { s with engine := s.engine.emit (.notify .error f.message) } := rfl

@[simp] theorem log_eq (message : String) :
    s.log message = { s with engine := s.engine.say [.log "session" message] } := rfl

@[simp] theorem debug_eq (message : String) :
    s.debug message = { s with engine := s.engine.say [.debug "session" message] } := rfl

@[simp] theorem reset_eq : s.reset = { s with engine := s.engine.reset } := rfl

@[simp] theorem load_eq (path : Path) (content : String) :
    s.load path content =
      { s with
        engine := s.engine.say [.debug "session" s!"opened {path.text}"]
        buffer := some (.load path content) } := rfl

/-- Takes over a main document, with all that belonged to another one forgotten. -/
def choose (s : Session) (path : Path) : Session :=
  { s with
    main := some path
    engine := s.engine.reset.say [.log "session" s!"main document {path.text}"] }

theorem afterSelect_ok (path : Path) :
    s.afterSelect path (.ok ()) =
      if s.currentFile.isNone then (s.choose path, .waits (.loading path .compile))
      else (s.choose path).startCompile true := rfl

@[simp] theorem endSave_session (auto : Option AutoSave) (outcome : SaveOutcome) :
    (s.endSave auto outcome).1 = s := by
  cases auto <;> rfl

/-- How a save begins: another one is writing, the text of the buffer is written, or there is
    nothing to write. -/
inductive SaveBegins (explicit : Bool) (auto : Option AutoSave) : Step → Prop
  | busy (set : s.saving = true) :
      SaveBegins explicit auto
        ((s.debug "save already in progress").endSave auto .inProgress)
  | writes {b : Buffer} (unset : s.saving = false) (shown : s.buffer = some b)
      (dirty : b.dirty = true) :
      SaveBegins explicit auto
        ({ s with saving := true }, .waits (.saving ⟨b.path, b.content, explicit⟩ auto))
  | nothing (unset : s.saving = false) (clean : s.isDirty = false) :
      SaveBegins explicit auto
        ((if explicit then s.notify .info "nothing to save" else s).endSave auto .clean)

theorem startSave_begins (explicit : Bool) (auto : Option AutoSave) :
    s.SaveBegins explicit auto (s.startSave explicit auto) := by
  unfold startSave
  split
  · next set => exact .busy set
  · next unset =>
    rw [Bool.not_eq_true] at unset
    split
    · next b shown =>
      split
      · next dirty => exact .writes unset shown dirty
      · next clean => exact .nothing unset (by simpa [isDirty, shown] using clean)
    · next shown => exact .nothing unset (by simp [isDirty, shown])

variable {s} in
theorem SaveBegins.session {explicit : Bool} {auto : Option AutoSave} {step : Step}
    (begins : s.SaveBegins explicit auto step) :
    step.1 = if s.saving then s.debug "save already in progress"
      else if s.isDirty then { s with saving := true }
      else if explicit then s.notify .info "nothing to save" else s := by
  cases begins with
  | busy set => simp [set]
  | writes unset shown dirty => simp [unset, isDirty, shown, dirty]
  | nothing unset clean => simp [unset, clean]

/-- What a save that begins makes of the session. -/
theorem startSave_session (explicit : Bool) (auto : Option AutoSave) :
    (s.startSave explicit auto).1 = if s.saving then s.debug "save already in progress"
      else if s.isDirty then { s with saving := true }
      else if explicit then s.notify .info "nothing to save" else s :=
  (s.startSave_begins explicit auto).session

/-! ## How an operation starts -/

/-- All ways in which an operation starts: most wait for an answer at once, and some end since
    there is nothing to do. -/
inductive Starts : Action → Step → Prop
  | opensWorkspace (path : Path) :
      Starts (.openWorkspace path) (s, .waits (.openingWorkspace path))
  | notCompilable (path : Path) (other : (DocumentKind.ofPath path).isCompilable = false) :
      Starts (.setMain path)
        (s.notify .info s!"only .typ files can be the main document, not {path.text}",
          .ended (.selected (.ok none)))
  | alreadyMain (path : Path) (chosen : s.isMain path = true) :
      Starts (.setMain path) (s, .ended (.selected (.ok none)))
  | selects (path : Path) (compilable : (DocumentKind.ofPath path).isCompilable = true)
      (other : s.isMain path = false) : Starts (.setMain path) (s, .waits (.selecting path))
  | opensFile (path : Path) : Starts (.openFile path) (s, .waits (.loading path .finish))
  | creates (path : Path) (text : String) :
      Starts (.createFile path text) (s, .waits (.creating path text))
  | compiles : Starts .compile (s.startCompile false)
  | nothingToRender (closed : s.snapshot = none) : Starts .render (s, .ended (.cycled none))
  | renders (source : Snapshot) (shown : s.snapshot = some source) :
      Starts .render ({ s with engine := (s.engine.startRender source none).1 },
        .waits (.cycling (s.engine.startRender source none).2 false))
  | saves (explicit : Bool) : Starts (.save explicit) (s.startSave explicit none)
  | autoSaves (interval stop : Nat) :
      Starts (.autoSave interval stop) (s, .waits (.resting ⟨interval, stop⟩))
  | nothingToExport (format : ExportFormat) (output : Path) (closed : s.main = none) :
      Starts (.export format output)
        (s.report (.transport .export "no main document selected"),
          .ended (.exported (.error (.transport .export "no main document selected"))))
  | persists (format : ExportFormat) (output : Path) {main : Path} (chosen : s.main = some main)
      {source : Snapshot} (shown : s.snapshot = some source) (own : source.path.same main) :
      Starts (.export format output) (s, .waits (.persisting source main format output))
  | exports (format : ExportFormat) (output : Path) {main : Path} (chosen : s.main = some main) :
      Starts (.export format output) (s, .waits (.exporting main format output))
  | clicks (page : Nat) (x y : Float) :
      Starts (.click page x y) ({ s with engine := (s.engine.startClick s.content page x y).1 },
        .waits (.clicking (s.engine.startClick s.content page x y).2))

theorem Action.starts (action : Action) : s.Starts action (action.start s) := by
  cases action with
  | openWorkspace path => exact .opensWorkspace path
  | setMain path =>
    simp only [start, startSetMain]
    split
    · next other => exact .notCompilable path (by simpa using other)
    · next compilable =>
      split
      · next chosen => exact .alreadyMain path chosen
      · next other => exact .selects path (by simpa using compilable) (by simpa using other)
  | openFile path => exact .opensFile path
  | createFile path text => exact .creates path text
  | compile => exact .compiles
  | render =>
    simp only [start, startRender]
    split
    · next closed => exact .nothingToRender closed
    · next source shown => exact .renders source shown
  | save explicit => exact .saves explicit
  | autoSave interval stop => exact .autoSaves interval stop
  | «export» format output =>
    simp only [start, startExport]
    split
    · next closed => exact .nothingToExport format output closed
    · next main chosen =>
      split
      · next source own =>
        obtain ⟨shown, own⟩ := Option.filter_eq_some_iff.mp own
        exact .persists format output chosen shown own
      · exact .exports format output chosen
  | click page x y => exact .clicks page x y

/-! ## How an operation takes an answer -/

/-- `stage.Refuses reply f result`: the answer ends the operation with `result`, and all that is
    done is to report `f`.  A save that could not be written is not among these. -/
inductive Stage.Refuses : (stage : Stage) → stage.request.Reply → Failure → Result → Prop
  | openingWorkspace (path : Path) (f : Failure) :
      Refuses (.openingWorkspace path) (.error f) f (.opened (.error f))
  | selecting (path : Path) (f : Failure) :
      Refuses (.selecting path) (.error f) f (.selected (.error f))
  | loading (path : Path) (next : AfterLoad) (e : SystemError) :
      Refuses (.loading path next) (.error e) (.io path e) (loadFailure next (.io path e))
  | creating (path : Path) (text : String) (f : Failure) :
      Refuses (.creating path text) (.error f) f (.opened (.error f))
  | persisting (source : Snapshot) (main : Path) (format : ExportFormat) (output : Path)
      (f : Failure) : Refuses (.persisting source main format output) (.error f) f
        (.exported (.error f))
  | exporting (main : Path) (format : ExportFormat) (output : Path) (f : Failure) :
      Refuses (.exporting main format output) (.error f) f (.exported (.error f))

/-- Switches to another workspace, with all that belonged to the old one forgotten. -/
def enter (path : Path) : Session :=
  { s with
    root := some path
    main := none
    buffer := none
    engine := s.engine.reset.say [.log "session" s!"workspace {path.text}"] }

/-- The session after the text of a save was written. -/
def afterWrite (save : Save) : Session :=
  let engine := s.engine.say [.debug "session" s!"saved {save.path.text}"]
  { s with
    saving := false
    buffer := s.buffer.map fun b =>
      if b.path.same save.path && b.content == save.content then b.markSaved else b
    engine :=
      if save.explicit then engine.emit (.notify .success s!"saved {shownName save.path}")
      else engine }

theorem afterSave_ok (save : Save) (auto : Option AutoSave) :
    s.afterSave save auto (.ok ()) = (s.afterWrite save).endSave auto .saved := by
  cases explicit : save.explicit <;> simp [afterSave, afterWrite, explicit]

/-- The session after the text of a save could not be written. -/
def afterUnwritten (save : Save) (e : SystemError) : Session :=
  ({ s with saving := false } : Session).report (.io save.path e)

variable [ImageDecoder]

/-- All ways in which an operation takes the answer to what it waits for. -/
inductive Resumes : (stage : Stage) → stage.request.Reply → Step → Prop
  | refused {stage : Stage} {reply : stage.request.Reply} {f : Failure} {result : Result}
      (refuses : stage.Refuses reply f result) :
      Resumes stage reply (s.report f, .ended result)
  | enters (path : Path) :
      Resumes (.openingWorkspace path) (.ok ()) (s.enter path, .ended (.opened (.ok ())))
  | chooses (path : Path) (closed : s.buffer = none) :
      Resumes (.selecting path) (.ok ()) (s.choose path, .waits (.loading path .compile))
  | recompiles (path : Path) {b : Buffer} (shown : s.buffer = some b) :
      Resumes (.selecting path) (.ok ()) ((s.choose path).startCompile true)
  | loads (path : Path) (content : String) : Resumes (.loading path .finish) (.ok content)
      (s.load path content, .ended (.opened (.ok ())))
  | loadsMain (path : Path) (content : String) : Resumes (.loading path .compile) (.ok content)
      ((s.load path content).startCompile true)
  | loadsTarget (path : Path) (position : Nat) (content : String) :
      Resumes (.loading path (.reveal position)) (.ok content)
        ((s.load path content).reveal path position, .ended (.clicked (some (.file path position))))
  | created (path : Path) (text : String) : Resumes (.creating path text) (.ok ())
      (s.notify .success s!"created {shownName path}", .waits (.loading path .finish))
  | cyclesOn (cycle : Cycle) (selected : Bool) (reply : cycle.call.Reply) {engine : Engine}
      {next : Cycle} (resumed : cycle.resume s.engine reply = (engine, .waits next)) :
      Resumes (.cycling cycle selected) reply ({ s with engine }, .waits (.cycling next selected))
  | concludes (cycle : Cycle) (selected : Bool) (reply : cycle.call.Reply) {engine : Engine}
      {outcome : Outcome} (resumed : cycle.resume s.engine reply = (engine, .ended outcome)) :
      Resumes (.cycling cycle selected) reply
        ({ s with engine }, .ended (cycleResult selected outcome))
  | unwritten (save : Save) (auto : Option AutoSave) (e : SystemError) :
      Resumes (.saving save auto) (.error e)
        ((s.afterUnwritten save e).endSave auto (.failed (Failure.io save.path e).kind))
  | written (save : Save) (auto : Option AutoSave) :
      Resumes (.saving save auto) (.ok ()) ((s.afterWrite save).endSave auto .saved)
  | savesNext (auto : AutoSave) (goesOn : auto.interval < auto.left) :
      Resumes (.resting auto) ()
        (s.startSave false (some { auto with left := auto.left - auto.interval }))
  | stops (auto : AutoSave) (last : ¬ auto.interval < auto.left) :
      Resumes (.resting auto) () (s, .ended .autoSaved)
  | persisted (source : Snapshot) (main : Path) (format : ExportFormat) (output : Path) :
      Resumes (.persisting source main format output) (.ok ())
        (s, .waits (.exporting main format output))
  | exported (main : Path) (format : ExportFormat) (output written : Path) :
      Resumes (.exporting main format output) (.ok written)
        ((s.log s!"exported {main.text} as {format.name}").notify .success
          s!"exported {shownName written}", .ended (.exported (.ok written)))
  | reveals (click : Click) (reply : Except Failure Jump) {engine : Engine} {path : Path}
      {position : Nat} (leads : click.resume s.engine reply = (engine, some (.file path position)))
      (isOpen : s.isOpen path = true) :
      Resumes (.clicking click) reply (({ s with engine } : Session).reveal path position,
        .ended (.clicked (some (.file path position))))
  | reads (click : Click) (reply : Except Failure Jump) {engine : Engine} {path : Path}
      {position : Nat} (leads : click.resume s.engine reply = (engine, some (.file path position)))
      (other : s.isOpen path = false) :
      Resumes (.clicking click) reply
        ({ s with engine }, .waits (.loading path (.reveal position)))
  | clicked (click : Click) (reply : Except Failure Jump) {engine : Engine} {jump : Option Jump}
      (resumed : click.resume s.engine reply = (engine, jump))
      (elsewhere : ∀ path position, jump ≠ some (.file path position)) :
      Resumes (.clicking click) reply ({ s with engine }, .ended (.clicked jump))

theorem Stage.resumes (stage : Stage) (reply : stage.request.Reply) :
    s.Resumes stage reply (stage.resume s reply) := by
  cases stage with
  | openingWorkspace path =>
    cases reply with
    | error f => exact .refused (.openingWorkspace path f)
    | ok done => exact .enters path
  | selecting path =>
    cases reply with
    | error f => exact .refused (.selecting path f)
    | ok done =>
      change s.Resumes (.selecting path) (.ok ()) (s.afterSelect path (.ok ()))
      rw [afterSelect_ok, currentFile, Option.isNone_map]
      cases shown : s.buffer with
      | none => exact .chooses path shown
      | some b => exact .recompiles path shown
  | loading path next =>
    cases reply with
    | error e => exact .refused (.loading path next e)
    | ok content =>
      cases next with
      | finish => exact .loads path content
      | compile => exact .loadsMain path content
      | reveal position => exact .loadsTarget path position content
  | creating path text =>
    cases reply with
    | error f => exact .refused (.creating path text f)
    | ok done => exact .created path text
  | cycling cycle selected =>
    simp only [resume, afterCycle]
    split
    · next resumed => exact .cyclesOn cycle selected reply resumed
    · next resumed => exact .concludes cycle selected reply resumed
  | saving save auto =>
    cases reply with
    | error e => exact .unwritten save auto e
    | ok done =>
      change s.Resumes (.saving save auto) (.ok ()) (s.afterSave save auto (.ok ()))
      rw [afterSave_ok]
      exact .written save auto
  | resting auto =>
    simp only [resume, afterRest]
    split
    · next goesOn => exact .savesNext auto goesOn
    · next last => exact .stops auto last
  | persisting source main format output =>
    cases reply with
    | error f => exact .refused (.persisting source main format output f)
    | ok done => exact .persisted source main format output
  | exporting main format output =>
    cases reply with
    | error f => exact .refused (.exporting main format output f)
    | ok written => exact .exported main format output written
  | clicking click =>
    simp only [resume, afterClick]
    split
    · next path position leads =>
      split
      · next isOpen => exact .reveals click reply (Prod.ext rfl leads) isOpen
      · next other => exact .reads click reply (Prod.ext rfl leads) (Bool.eq_false_iff.mpr other)
    · next elsewhere => exact .clicked click reply rfl elsewhere

end LivePreview.Session
