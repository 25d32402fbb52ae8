import LivePreview.Page.Decoder
import LivePreview.Session.Operation
import LivePreview.Text.Duration
import LivePreview.Toy.Backend

/-!
# A world on virtual time

A `World` is a session together with a backend, a disk and a clock that only moves
when everything waits.  `submit` puts the request of a task to the world: a call
is recorded and answered at once, but the answer is delivered after its delay, or
as a timeout when the delay is too long.  `deliver` hands the answer to the task.
-/

namespace LivePreview.Simulation

open Preview (Click Cycle Note Outcome Progress)
open Session (Action Request Result Stage)

scoped instance : ImageDecoder := pngDecoder

/-- The backends a world can have. -/
inductive WorldBackend where
  | scripted (b : Scripted)
  | toy (b : Toy.Backend)

/-- A session and what is around it. -/
structure World where
  session : Session
  backend : WorldBackend
  disk : Disk
  /-- The virtual time in milliseconds. -/
  now : Nat
  /-- The longest time a call may take. -/
  timeout : Nat
  /-- The calls made, oldest first. -/
  calls : List Call

/-- An operation under way: one of the engine alone, or one of the session. -/
inductive Task where
  | cycle (c : Cycle)
  | click (c : Click)
  | session (stage : Stage)

@[reducible] def Task.request : Task → Request
  | .cycle c => .call c.call
  | .click c => .call c.call
  | .session stage => stage.request

/-- What a task ends with. -/
inductive Ended where
  | outcome (outcome : Outcome)
  | jump (jump : Option Jump)
  | result (result : Result)

namespace World

def start (backend : WorldBackend) (disk : Disk) (timeout cacheCapacity : Nat) : World :=
  ⟨.start (.start cacheCapacity), backend, disk, 0, timeout, []⟩

/-- The reply of the backend to a call, and the world in which it was made. -/
def respond (w : World) (call : Call) : Response call × World :=
  let w := { w with calls := w.calls ++ [call] }
  match w.backend with
  | .scripted b =>
    let (response, b, disk) := b.respond w.disk call
    (response, { w with backend := .scripted b, disk })
  | .toy b =>
    let (response, b) := b.respond call
    (response, { w with backend := .toy b })

def say (w : World) (lines : List Console.LogLine) : World :=
  { w with session := { w.session with engine := w.session.engine.say lines } }

def takeNotes (w : World) : List Note × World :=
  let (notes, engine) := w.session.engine.takeNotes
  (notes, { w with session := { w.session with engine } })

def takeCalls (w : World) : List Call × World :=
  (w.calls, { w with calls := [] })

end World

/-- A task whose answer is known and will be delivered. -/
structure Pending where
  task : Task
  /-- When the answer is due. -/
  due : Nat
  /-- A file to write when it is due, before the answer counts. -/
  write : Option (Path × String)
  /-- Whether a file access is still out, so that others get their turn first. -/
  fileOut : Bool
  /-- Whether the call ran out of time. -/
  expired : Bool
  reply : task.request.Reply

def timeoutReply (w : World) (call : Call) : call.Reply :=
  .error (.timeout call.operation w.timeout)

/-- When and how a response reaches its caller.  A call that is still writing a file
    when its time is over counts as too late. -/
def bounded (w : World) {call : Call} (r : Response call) :
    Nat × Option (Path × String) × Bool × call.Reply :=
  if w.timeout < r.delay then (w.now + w.timeout, none, true, timeoutReply w call)
  else if r.write.isSome ∧ w.timeout = r.delay then
    (w.now + w.timeout, r.write, true, timeoutReply w call)
  else (w.now + r.delay, r.write, false, r.reply)

def ask (w : World) : (request : Request) →
    (Nat × Option (Path × String) × Bool × Bool × request.Reply) × World
  | .call c =>
    let (response, w) := w.respond c
    let (due, write, expired, reply) := bounded w response
    ((due, write, false, expired, reply), w)
  | .read path => ((w.now, none, true, false, w.disk.readText path), w)
  | .write path text =>
    match w.disk.writeText path text with
    | .ok disk => ((w.now, none, true, false, .ok ()), { w with disk })
    | .error e => ((w.now, none, true, false, .error e), w)
  | .pause duration => ((w.now + duration, none, false, false, ()), w)

def submit (w : World) (task : Task) : Pending × World :=
  let ((due, write, fileOut, expired, reply), w) := ask w task.request
  (⟨task, due, write, fileOut, expired, reply⟩, w)

/-- The reply to a request whose file could not be written. -/
def writeFailure (path : Path) (e : SystemError) :
    (request : Request) → request.Reply → request.Reply
  | .call _, _ => .error (.io path e)
  | .read _, reply => reply
  | .write _ _, reply => reply
  | .pause _, reply => reply

/-- Writes the file that an answer which is due depends on. -/
def writeDue (w : World) (p : Pending) : Pending × World :=
  match p.write with
  | none => (p, w)
  | some (path, text) =>
    match w.disk.writeText path text with
    | .ok disk => ({ p with write := none, fileOut := !p.expired }, { w with disk })
    | .error e =>
      let reply :=
        if p.expired then p.reply else writeFailure path e p.task.request p.reply
      ({ p with write := none, fileOut := !p.expired, reply }, w)

abbrev TaskProgress : Type :=
  Progress Task Ended

def resume (w : World) : (task : Task) → task.request.Reply → World × TaskProgress
  | .cycle c, reply =>
    let s := w.session
    match c.resume s.engine reply with
    | (engine, .waits c) => ({ w with session := { s with engine } }, .waits (.cycle c))
    | (engine, .ended o) => ({ w with session := { s with engine } }, .ended (.outcome o))
  | .click c, reply =>
    let s := w.session
    let (engine, jump) := c.resume s.engine reply
    ({ w with session := { s with engine } }, .ended (.jump jump))
  | .session stage, reply =>
    match stage.resume w.session reply with
    | (session, .waits stage) => ({ w with session }, .waits (.session stage))
    | (session, .ended r) => ({ w with session }, .ended (.result r))

def deliver (w : World) (p : Pending) : World × TaskProgress :=
  let w :=
    match p.expired, p.task.request with
    | true, .call c =>
      w.say [.debug "backend"
        s!"`{c.operation.name}` timed out after {Text.durationText w.timeout}"]
    | _, _ => w
  resume w p.task p.reply

end LivePreview.Simulation
