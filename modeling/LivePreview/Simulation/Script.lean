import LivePreview.Simulation.World

/-!
# Scripts

A script is a list of steps, some of which run lists of steps side by side.  `run`
lets a script go on until it has ended.  At each instant every branch goes as far
as it can, in order; then file accesses that are out come back, and when none is
left the clock moves to the next time at which something is due.
-/

namespace LivePreview.Simulation

open Preview (Outcome Progress)
open Session (Action Result)

/-- A step of a script. -/
inductive ScriptStep where
  | wait (duration : Nat)
  /-- Change the backend. -/
  | change (f : WorldBackend → WorldBackend)
  /-- Run scripts side by side. -/
  | fork (branches : List (List ScriptStep))
  | reset
  /-- Compile and render a source, without a session. -/
  | compile (source : Snapshot)
  | render (source : Snapshot)
  | click (text : String) (page : Nat) (x y : Float)
  /-- The markers of the engine on a text. -/
  | markersOn (text : String)
  | act (action : Action)
  /-- Save, with steps that run while the text is being written. -/
  | saveDuring (explicit : Bool) (steps : List ScriptStep)
  | edit (content : String) (cursor : Nat)
  | moveCursor (offset : Nat)
  /-- The markers of the session. -/
  | markers
  /-- Change the disk behind the session's back. -/
  | disk (f : Disk → Disk)
  /-- Read a file. -/
  | read (path : Path)

/-- What a step answers. -/
inductive StepOut where
  | nothing
  | flag (b : Bool)
  | ended (e : Ended)
  | markers (markers : List Marker)
  | text (text : Option String)
  | forked (branches : List (List (Nat × StepOut)))
  | savedDuring (save : Ended) (outs : List StepOut)

/-- A script under way: the steps that are left, and the answers of those done, with
    their times, newest first. -/
structure Script where
  steps : List ScriptStep
  done : List (Nat × StepOut)

namespace Script

def start (steps : List ScriptStep) : Script :=
  ⟨steps, []⟩

def outs (s : Script) : List (Nat × StepOut) :=
  s.done.reverse

end Script

/-- What the current step of a script does. -/
inductive Activity where
  /-- There is no current step. -/
  | idle
  | waiting (p : Pending)
  | sleeping (due : Nat)
  | forked (children : List (Activity × Script))
  /-- A save whose write is out, while other steps run. -/
  | holding (p : Pending) (during : Activity × Script)
  /-- Steps that run after a save that had nothing to write. -/
  | following (save : Ended) (during : Activity × Script)

abbrev Process : Type :=
  Activity × Script

def Process.start (steps : List ScriptStep) : Process :=
  (.idle, .start steps)

def Process.hasEnded : Process → Bool
  | (.idle, script) => script.steps.isEmpty
  | _ => false

def Process.finish (w : World) (script : Script) (out : StepOut) : Process :=
  (.idle, { script with done := (w.now, out) :: script.done })

/-! ## Starting steps -/

/-- What starting a step leads to: an answer, or an activity. -/
inductive Started where
  | answered (out : StepOut)
  | goesOn (activity : Activity)

/-- Goes on with a task, or answers with its end. -/
def Started.ofProgress (w : World) : TaskProgress → Started × World
  | .ended e => (.answered (.ended e), w)
  | .waits task =>
    let (p, w) := submit w task
    (.goesOn (.waiting p), w)

def startAction (w : World) (action : Action) : World × TaskProgress :=
  match action.start w.session with
  | (session, .waits stage) => ({ w with session }, .waits (.session stage))
  | (session, .ended r) => ({ w with session }, .ended (.result r))

def startStep (w : World) (step : ScriptStep) : Started × World :=
  let s := w.session
  match step with
  | .wait duration => (.goesOn (.sleeping (w.now + duration)), w)
  | .change f => (.answered .nothing, { w with backend := f w.backend })
  | .fork branches => (.goesOn (.forked (branches.map Process.start)), w)
  | .reset => (.answered .nothing, { w with session := s.reset })
  | .compile source =>
    let (engine, c) := s.engine.startCompile source
    Started.ofProgress { w with session := { s with engine } } (.waits (.cycle c))
  | .render source =>
    let (engine, c) := s.engine.startRender source none
    Started.ofProgress { w with session := { s with engine } } (.waits (.cycle c))
  | .click text page x y =>
    let (engine, c) := s.engine.startClick text page x y
    Started.ofProgress { w with session := { s with engine } } (.waits (.click c))
  | .markersOn text => (.answered (.markers (s.engine.markersOn text)), w)
  | .act action =>
    let (w, progress) := startAction w action
    Started.ofProgress w progress
  | .saveDuring explicit steps =>
    match startAction w (.save explicit) with
    | (w, .ended e) => (.goesOn (.following e (Process.start steps)), w)
    | (w, .waits task) =>
      let (p, w) := submit w task
      (.goesOn (.holding p (Process.start steps)), w)
  | .edit content cursor =>
    let (session, b) := s.edit content cursor
    (.answered (.flag b), { w with session })
  | .moveCursor offset =>
    let (session, b) := s.moveCursor offset
    (.answered (.flag b), { w with session })
  | .markers => (.answered (.markers s.markers), w)
  | .disk f => (.answered .nothing, { w with disk := f w.disk })
  | .read path => (.answered (.text (w.disk.shownText path)), w)

/-! ## Going on -/

/-- Lets a process go on at the current instant until it waits; `fuel` bounds the
    number of its steps. -/
def poll (fuel : Nat) (w : World) (process : Process) : World × Process :=
  match fuel with
  | 0 => (w, process)
  | fuel + 1 =>
    match process with
    | (.idle, script) =>
      match script.steps with
      | [] => (w, process)
      | step :: steps =>
        let script := { script with steps }
        match startStep w step with
        | (.answered out, w) => poll fuel w (Process.finish w script out)
        | (.goesOn activity, w) => poll fuel w (activity, script)
    | (.sleeping due, script) =>
      if due ≤ w.now then poll fuel w (Process.finish w script .nothing) else (w, process)
    | (.waiting p, script) =>
      if w.now < p.due ∨ p.fileOut then (w, process)
      else if p.write.isSome then
        let (p, w) := writeDue w p
        poll fuel w (.waiting p, script)
      else
        match deliver w p with
        | (w, .ended e) => poll fuel w (Process.finish w script (.ended e))
        | (w, .waits task) =>
          let (p, w) := submit w task
          poll fuel w (.waiting p, script)
    | (.forked children, script) =>
      let (w, children) := children.foldl (fun (w, polled) child =>
        let (w, child) := poll fuel w child
        (w, polled ++ [child])) (w, [])
      if children.all Process.hasEnded then
        poll fuel w (Process.finish w script (.forked (children.map fun child => child.2.outs)))
      else (w, (.forked children, script))
    | (.holding p during, script) =>
      let (w, during) := poll fuel w during
      if during.hasEnded then
        match resume w p.task p.reply with
        | (w, .ended e) =>
          poll fuel w (Process.finish w script (.savedDuring e (during.2.outs.map (·.2))))
        | (w, .waits _) => (w, (.holding p during, script))
      else (w, (.holding p during, script))
    | (.following e during, script) =>
      let (w, during) := poll fuel w during
      if during.hasEnded then
        poll fuel w (Process.finish w script (.savedDuring e (during.2.outs.map (·.2))))
      else (w, (.following e during, script))

/-- The pending answers of a process that are not held back, and the ends of its
    pauses. -/
def waits (fuel : Nat) (process : Process) : List (Nat × Bool) :=
  match fuel with
  | 0 => []
  | fuel + 1 =>
    match process.1 with
    | .idle => []
    | .waiting p => [(p.due, p.fileOut)]
    | .sleeping due => [(due, false)]
    | .forked children => children.flatMap (waits fuel)
    | .holding _ during => waits fuel during
    | .following _ during => waits fuel during

def filesBack (fuel : Nat) (process : Process) : Process :=
  match fuel with
  | 0 => process
  | fuel + 1 =>
    match process with
    | (.waiting p, script) => (.waiting { p with fileOut := false }, script)
    | (.forked children, script) => (.forked (children.map (filesBack fuel)), script)
    | (.holding p during, script) => (.holding p (filesBack fuel during), script)
    | (.following e during, script) => (.following e (filesBack fuel during), script)
    | other => other

/-- Lets a process go on until it has ended, at most `fuel` times. -/
def runProcess (fuel : Nat) (w : World) (process : Process) : World × Process :=
  match fuel with
  | 0 => (w, process)
  | rounds + 1 =>
    let (w, process) := poll fuel w process
    if process.hasEnded then (w, process)
    else
      let waiting := waits fuel process
      if waiting.any fun (due, fileOut) => due ≤ w.now && fileOut then
        runProcess rounds w (filesBack fuel process)
      else
        match (waiting.map (·.1)).min? with
        | none => (w, process)
        | some next => runProcess rounds { w with now := max w.now next } process

mutual

/-- A bound on the number of rounds and steps of a step. -/
def ScriptStep.weight : ScriptStep → Nat
  | .fork branches => 8 + branchesWeight branches
  | .saveDuring _ steps => 32 + stepsWeight steps
  | .act (.autoSave interval stop) => 16 + 8 * (stop / max interval 1 + 1)
  | _ => 32

def stepsWeight : List ScriptStep → Nat
  | [] => 0
  | step :: steps => step.weight + stepsWeight steps

def branchesWeight : List (List ScriptStep) → Nat
  | [] => 0
  | steps :: branches => stepsWeight steps + branchesWeight branches

end

def runStep (w : World) (step : ScriptStep) : World × Option StepOut :=
  let (w, process) := runProcess (8 * step.weight) w (Process.start [step])
  (w, (process.2.done.head?).map (·.2))

end LivePreview.Simulation
