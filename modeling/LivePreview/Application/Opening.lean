import LivePreview.Application.HostSession

/-!
# Opening a document

All commands open their document alike: the workspace, then the file with the
cursor in it, then the file as the main document, which compiles it.
-/

namespace LivePreview.Application

open Host (Environment Program)
open Preview (Outcome)
open Session (Action Result)

/-- Work in a session, which may end with a fault; the session is kept even then. -/
abbrev Work : Type → Type :=
  ExceptT Fault (StateT HostSession Program)

namespace Work

variable [ImageDecoder]

def act (action : Action) : Work Result := do
  let (result, d) ← ((← get).carryOut action : Program _)
  set d
  pure result

def say (lines : List Console.LogLine) : Work Unit := do
  (Application.say (← get).verbose lines : Program Unit)

def print (text : String) : Work Unit :=
  (Program.request (.print text) : Program Unit)

def takeEvents : Work (List Event) :=
  modifyGet fun d => (d.events, { d with events := [] })

def logEvents : Work Unit := do
  for event in ← takeEvents do
    say event.logLine?.toList

/-- The answer, or a fault in place of a failure. -/
def orFault {α : Type} (result : Except Failure α) : Work α :=
  match result with
  | .ok a => pure a
  | .error f => throw (.failure f)

def openPart (action : Action) : Work Unit := do
  match ← act action with
  | .opened result => orFault result
  | _ => pure ()

def moveCursor (cursor : Nat) : Work Unit :=
  modify fun d => { d with session := (d.session.moveCursor cursor).1 }

def openDocument (document : Document) (cursor : Nat) : Work Outcome := do
  openPart (.openWorkspace document.root)
  openPart (.openFile document.main)
  moveCursor cursor
  match ← act (.setMain document.main) with
  | .selected (.ok (some outcome)) => pure outcome
  | .selected (.error f) => throw (.failure f)
  | _ => throw .notCompiled

end Work

/-- Does work in a fresh session.  The pages that were drawn are removed in the end,
    however it ends. -/
def inSession {α : Type} (env : Environment) (config : Config) (verbose : Bool) (work : Work α) :
    Attempt α := do
  let program ← findProgram env verbose config.backend.typst
  let running := HostSession.start env config program verbose
  let (result, running) ← (work.run.run running : Program _)
  let _ ← (Program.request (.removeTree running.compiler.outDir) : Program _)
  liftExcept result
where
  /-- A result as an attempt. -/
  liftExcept (result : Except Fault α) : Attempt α :=
    match result with
    | .ok a => pure a
    | .error fault => throw fault

end LivePreview.Application
