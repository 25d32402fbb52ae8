import LivePreview.Session.State

/-!
# Operations of a session

Like a cycle, an operation of a session runs in steps.  Between two steps it waits
for a `Request`: a call to the backend, a file to be read or written, or some time
to pass.  `Action.start` is the first step, and `Stage.resume` the step after the
answer to what `Stage.request` asks for.
-/

namespace LivePreview.Session

open Preview (Click Cycle Engine Outcome Progress)

/-- What a step waits for. -/
inductive Request where
  | call (call : Call)
  | read (path : Path)
  | write (path : Path) (text : String)
  /-- So many milliseconds. -/
  | pause (duration : Nat)
  deriving DecidableEq

abbrev Request.Reply : Request → Type
  | .call c => c.Reply
  | .read _ => Except SystemError String
  | .write _ _ => Except SystemError Unit
  | .pause _ => Unit

/-- How a save ends. -/
inductive SaveOutcome where
  | saved
  /-- Nothing is open, or nothing was changed. -/
  | clean
  /-- Another save is still running. -/
  | inProgress
  | failed (kind : FailureKind)
  deriving DecidableEq, Repr, Inhabited

/-- What a user can ask of a session and has to wait for. -/
inductive Action where
  /-- Switch to another workspace. -/
  | openWorkspace (path : Path)
  /-- Make a file the document that the preview compiles, and compile it. -/
  | setMain (path : Path)
  /-- Load a file into the buffer. -/
  | openFile (path : Path)
  /-- Create a file and load it. -/
  | createFile (path : Path) (text : String)
  /-- Compile and render the buffer. -/
  | compile
  /-- Render for the cursor. -/
  | render
  /-- Write the buffer to disk.  Only a save that the user asked for says so. -/
  | save (explicit : Bool)
  /-- Save whenever `interval` has passed, until `stop` has. -/
  | autoSave (interval stop : Nat)
  /-- Export the main document. -/
  | export (format : ExportFormat) (output : Path)
  /-- Follow a click on the preview. -/
  | click (page : Nat) (x y : Float)
  deriving DecidableEq, Repr

/-- What an operation answers. -/
inductive Result where
  /-- Of opening and creating. -/
  | opened (result : Except Failure Unit)
  /-- Of choosing a main document; nothing if there was nothing to do. -/
  | selected (result : Except Failure (Option Outcome))
  /-- Of compiling and rendering; nothing if no file is open. -/
  | cycled (outcome : Option Outcome)
  | saved (outcome : SaveOutcome)
  | autoSaved
  | exported (result : Except Failure Path)
  | clicked (jump : Option Jump)

/-- Automatic saves that go on. -/
structure AutoSave where
  interval : Nat
  /-- The time until they stop. -/
  left : Nat
  deriving DecidableEq, Repr

namespace AutoSave

def pause (a : AutoSave) : Nat :=
  min a.interval a.left

end AutoSave

/-- A save whose text is being written. -/
structure Save where
  path : Path
  content : String
  explicit : Bool
  deriving DecidableEq, Repr

/-- What comes after a file was loaded. -/
inductive AfterLoad where
  | finish
  /-- Compile the main document that was chosen. -/
  | compile
  /-- Move to a byte position of the file, as a click wants. -/
  | reveal (position : Nat)
  deriving DecidableEq, Repr

/-- Where an operation waits. -/
inductive Stage where
  | openingWorkspace (path : Path)
  | selecting (path : Path)
  | loading (path : Path) (next : AfterLoad)
  | creating (path : Path) (text : String)
  /-- A cycle under way; `selected` says whether it follows the choice of a main
      document. -/
  | cycling (cycle : Cycle) (selected : Bool)
  /-- A save under way, alone or as one of several. -/
  | saving (save : Save) (auto : Option AutoSave)
  | resting (auto : AutoSave)
  /-- Writing the main document through before it is exported. -/
  | persisting (source : Snapshot) (main : Path) (format : ExportFormat) (output : Path)
  | exporting (main : Path) (format : ExportFormat) (output : Path)
  | clicking (click : Click)
  deriving DecidableEq

@[reducible] def Stage.request : Stage → Request
  | .openingWorkspace path => .call (.openWorkspace path)
  | .selecting path => .call (.setMainDocument path)
  | .loading path _ => .read path
  | .creating path text => .call (.createFile path text)
  | .cycling cycle _ => .call cycle.call
  | .saving save _ => .write save.path save.content
  | .resting auto => .pause auto.pause
  | .persisting source _ _ _ => .call (.persistSource source.path source.content)
  | .exporting _ format output => .call (.export format output)
  | .clicking click => .call click.call

/-- A step of an operation: the session after it, and where the operation stands. -/
abbrev Step : Type :=
  Session × Progress Stage Result

/-! ## Cycles -/

def cycleResult (selected : Bool) (outcome : Outcome) : Result :=
  if selected then .selected (.ok (some outcome)) else .cycled (some outcome)

def startCompile (s : Session) (selected : Bool) : Step :=
  match s.snapshot with
  | none => (s, .ended (if selected then .selected (.ok none) else .cycled none))
  | some source =>
    let (engine, cycle) := s.engine.startCompile source
    ({ s with engine }, .waits (.cycling cycle selected))

def startRender (s : Session) : Step :=
  match s.snapshot with
  | none => (s, .ended (.cycled none))
  | some source =>
    let (engine, cycle) := s.engine.startRender source none
    ({ s with engine }, .waits (.cycling cycle false))

def afterCycle [ImageDecoder] (s : Session) (cycle : Cycle) (selected : Bool)
    (reply : cycle.call.Reply) :
    Step :=
  match cycle.resume s.engine reply with
  | (engine, .waits cycle) => ({ s with engine }, .waits (.cycling cycle selected))
  | (engine, .ended outcome) => ({ s with engine }, .ended (cycleResult selected outcome))

/-! ## Opening -/

def afterOpenWorkspace (s : Session) (path : Path) (reply : Except Failure Unit) : Step :=
  match reply with
  | .error f => (s.report f, .ended (.opened (.error f)))
  | .ok _ =>
    let s : Session := { s with root := some path, main := none, buffer := none }
    (s.reset.log s!"workspace {path.text}", .ended (.opened (.ok ())))

/-- Chooses a main document.  Nothing is done for a file that cannot be compiled,
    nor for the one that is chosen already. -/
def startSetMain (s : Session) (path : Path) : Step :=
  if !(DocumentKind.ofPath path).isCompilable then
    (s.notify .info s!"only .typ files can be the main document, not {path.text}",
      .ended (.selected (.ok none)))
  else if s.isMain path then (s, .ended (.selected (.ok none)))
  else (s, .waits (.selecting path))

def afterSelect (s : Session) (path : Path) (reply : Except Failure Unit) : Step :=
  match reply with
  | .error f => (s.report f, .ended (.selected (.error f)))
  | .ok _ =>
    let s : Session := ({ s with main := some path }).reset.log s!"main document {path.text}"
    if s.currentFile.isNone then (s, .waits (.loading path .compile)) else s.startCompile true

/-- Moves to a byte position of the file that a click leads to. -/
def reveal (s : Session) (path : Path) (position : Nat) : Session :=
  match s.buffer with
  | none => s
  | some b =>
    let offset := Text.charOffset b.content position
    let s : Session := { s with buffer := some (b.moveCursor offset) }
    { s with engine := s.engine.emit (.revealCursor path offset) }

/-- The result of an operation whose file could not be loaded. -/
def loadFailure (next : AfterLoad) (f : Failure) : Result :=
  match next with
  | .finish => .opened (.error f)
  | .compile => .selected (.error f)
  | .reveal _ => .clicked none

def afterLoad (s : Session) (path : Path) (next : AfterLoad)
    (reply : Except SystemError String) : Step :=
  match reply with
  | .error e =>
    let f : Failure := .io path e
    (s.report f, .ended (loadFailure next f))
  | .ok content =>
    let s := s.load path content
    match next with
    | .finish => (s, .ended (.opened (.ok ())))
    | .compile => s.startCompile true
    | .reveal position => (s.reveal path position, .ended (.clicked (some (.file path position))))

def afterCreate (s : Session) (path : Path) (reply : Except Failure Unit) : Step :=
  match reply with
  | .error f => (s.report f, .ended (.opened (.error f)))
  | .ok _ => (s.notify .success s!"created {shownName path}", .waits (.loading path .finish))

/-! ## Saving -/

def rest (s : Session) (auto : AutoSave) : Step :=
  (s, .waits (.resting auto))

def endSave (s : Session) (auto : Option AutoSave) (outcome : SaveOutcome) : Step :=
  match auto with
  | none => (s, .ended (.saved outcome))
  | some auto => s.rest auto

/-- Starts a save, unless one is under way or nothing was changed. -/
def startSave (s : Session) (explicit : Bool) (auto : Option AutoSave) : Step :=
  if s.saving then (s.debug "save already in progress").endSave auto .inProgress
  else
    match s.buffer with
    | some b =>
      if b.dirty then
        ({ s with saving := true }, .waits (.saving ⟨b.path, b.content, explicit⟩ auto))
      else nothingToSave
    | none => nothingToSave
where
  /-- Ends a save that has nothing to write. -/
  nothingToSave : Step :=
    (if explicit then s.notify .info "nothing to save" else s).endSave auto .clean

/-- After the text was written.  An edit made meanwhile keeps the buffer dirty. -/
def afterSave (s : Session) (save : Save) (auto : Option AutoSave)
    (reply : Except SystemError Unit) : Step :=
  let s : Session := { s with saving := false }
  match reply with
  | .error e =>
    let f : Failure := .io save.path e
    (s.report f).endSave auto (.failed f.kind)
  | .ok _ =>
    let buffer := s.buffer.map fun b =>
      if b.path.same save.path && b.content == save.content then b.markSaved else b
    let s := ({ s with buffer }).debug s!"saved {save.path.text}"
    let s := if save.explicit then s.notify .success s!"saved {shownName save.path}" else s
    s.endSave auto .saved

def afterRest (s : Session) (auto : AutoSave) : Step :=
  if auto.interval < auto.left then
    s.startSave false (some { auto with left := auto.left - auto.interval })
  else (s, .ended .autoSaved)

/-! ## Exporting -/

/-- Starts an export.  The open buffer is written through first when it shows the
    main document. -/
def startExport (s : Session) (format : ExportFormat) (output : Path) : Step :=
  match s.main with
  | none =>
    let f : Failure := .transport .export "no main document selected"
    (s.report f, .ended (.exported (.error f)))
  | some main =>
    match s.snapshot.filter fun source => source.path.same main with
    | some source => (s, .waits (.persisting source main format output))
    | none => (s, .waits (.exporting main format output))

def afterPersist (s : Session) (main : Path) (format : ExportFormat) (output : Path)
    (reply : Except Failure Unit) : Step :=
  match reply with
  | .error f => (s.report f, .ended (.exported (.error f)))
  | .ok _ => (s, .waits (.exporting main format output))

def afterExport (s : Session) (main : Path) (format : ExportFormat)
    (reply : Except Failure Path) : Step :=
  match reply with
  | .error f => (s.report f, .ended (.exported (.error f)))
  | .ok written =>
    let s := s.log s!"exported {main.text} as {format.name}"
    (s.notify .success s!"exported {shownName written}", .ended (.exported (.ok written)))

/-! ## Clicks -/

def startClick (s : Session) (page : Nat) (x y : Float) : Step :=
  let (engine, click) := s.engine.startClick s.content page x y
  ({ s with engine }, .waits (.clicking click))

def afterClick (s : Session) (click : Click) (reply : Except Failure Jump) : Step :=
  let (engine, jump) := click.resume s.engine reply
  let s : Session := { s with engine }
  match jump with
  | some (.file path position) =>
    if s.isOpen path then
      (s.reveal path position, .ended (.clicked (some (.file path position))))
    else (s, .waits (.loading path (.reveal position)))
  | jump => (s, .ended (.clicked jump))

def Action.start (s : Session) : Action → Step
  | .openWorkspace path => (s, .waits (.openingWorkspace path))
  | .setMain path => s.startSetMain path
  | .openFile path => (s, .waits (.loading path .finish))
  | .createFile path text => (s, .waits (.creating path text))
  | .compile => s.startCompile false
  | .render => s.startRender
  | .save explicit => s.startSave explicit none
  | .autoSave interval stop => s.rest ⟨interval, stop⟩
  | .export format output => s.startExport format output
  | .click page x y => s.startClick page x y

/-- The step after the answer to what a stage waits for. -/
def Stage.resume [ImageDecoder] (s : Session) (stage : Stage) (reply : stage.request.Reply) :
    Step :=
  match stage, reply with
  | .openingWorkspace path, reply => s.afterOpenWorkspace path reply
  | .selecting path, reply => s.afterSelect path reply
  | .loading path next, reply => s.afterLoad path next reply
  | .creating path _, reply => s.afterCreate path reply
  | .cycling cycle selected, reply => s.afterCycle cycle selected reply
  | .saving save auto, reply => s.afterSave save auto reply
  | .resting auto, _ => s.afterRest auto
  | .persisting _ main format output, reply => s.afterPersist main format output reply
  | .exporting main format _, reply => s.afterExport main format reply
  | .clicking click, reply => s.afterClick click reply

end LivePreview.Session
