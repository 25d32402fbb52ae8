import LivePreview.Application.Startup
import LivePreview.Compiler.Answer
import LivePreview.Console.Notice
import LivePreview.Console.Status
import LivePreview.Session.Rank

/-!
# Sessions on the system

In a `HostSession` a session works with a compiler program on the system itself.
`HostSession.carryOut` does an operation of the session from its first step to its last,
with nothing in between; the log is printed on the way, and events are kept until
they are shown.
-/

namespace LivePreview.Application

open Console (LogLine StatusBlock)
open Host (Environment Program)
open Preview (Engine)
open Session (Action Result Stage)

/-- A session and its compiler. -/
structure HostSession where
  session : Session
  compiler : Compiler
  /-- Events not shown yet, oldest first. -/
  events : List Event
  /-- The status block on screen. -/
  status : StatusBlock
  verbose : Bool

namespace HostSession

def start (env : Environment) (config : Config) (program : Path) (verbose : Bool) :
    HostSession where
  session := .start (Engine.start config.preview.cacheCapacity)
  compiler := .start program config.backend.ppi (env.temporary.child s!"folio-{env.process}")
  events := []
  status := .none
  verbose

/-- Prints the log and keeps the events of the last step. -/
def settle (d : HostSession) : Program HostSession := do
  let (notes, engine) := d.session.engine.takeNotes
  say d.verbose (Engine.linesOf notes)
  pure { d with
    session := { d.session with engine }
    events := d.events ++ Engine.eventsOf notes }

def serve (d : HostSession) : (request : Session.Request) → Program (request.Reply × HostSession)
  | .call call => do
    let (reply, compiler) ← d.compiler.answer call
    let (lines, compiler) := compiler.takeLines
    say d.verbose lines
    pure (reply, { d with compiler })
  | .read path => do pure (← Program.readText path, d)
  | .write path text => do pure (← Program.writeText path text, d)
  | .pause _ => pure ((), d)

variable [ImageDecoder]

/-- Carries an operation out from a stage on.  Automatic saves are over when they
    pause. -/
def finish (d : HostSession) (stage : Stage) : Program (Result × HostSession) :=
  match rests : stage.isResting with
  | true => pure (.autoSaved, d)
  | false => (d.serve stage.request).bind fun (reply, d) =>
    match resumed : stage.resume d.session reply with
    | (session, .ended result) => do pure (result, ← { d with session }.settle)
    | (session, .waits next) =>
      have := Session.Stage.resume_rank rests resumed
      (settle { d with session }).bind fun d => finish d next
termination_by stage.rank

def carryOut (d : HostSession) (action : Action) : Program (Result × HostSession) := do
  match action.start d.session with
  | (session, .ended result) => pure (result, ← { d with session }.settle)
  | (session, .waits stage) => (← { d with session }.settle).finish stage

end HostSession

end LivePreview.Application
