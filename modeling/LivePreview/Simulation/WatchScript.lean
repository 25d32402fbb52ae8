import LivePreview.Application.Run
import LivePreview.Simulation.Scenario
import LivePreview.Simulation.Transcript
import LivePreview.Watch.Change

/-!
# Scripts for a watched document

The application on a simulated machine: whole runs, and a document that is watched
while a script changes the disk, reports changes, and compiles.
-/

namespace LivePreview.Simulation

open Application (Attempt HostSession Document Fault Loaded Work)
open CommandLine (Invocation)
open Decode
open Host (Environment)
open Preview (Outcome)

/-! ## Whole runs -/

def environmentOf (s : Machine) (home : Option String) : Environment where
  current := Disk.pathOf s.disk.current
  home
  temporary := Disk.pathOf homePlace
  programs := s.programs
  process := "PID"

def Machine.enter (s : Machine) (dir : Path) : Machine :=
  match s.disk.resolve dir with
  | .ok place => { s with disk := { s.disk with current := place } }
  | .error _ => s

def Machine.attempt {α : Type} (s : Machine) (work : Attempt α) : Except Fault α × Machine :=
  s.perform work.run

def Machine.work {α : Type} (s : Machine) (d : HostSession) (work : Work α) :
    Except Fault α × HostSession × Machine :=
  let ((result, d), s) := s.perform (work.run.run d)
  (result, d, s)

/-! ## A watched document -/

/-- A step of a script. -/
inductive WatchStep where
  /-- Open the document. -/
  | start
  | compile
  /-- A file below the directory of the scenario was changed. -/
  | changed (path : Path)
  /-- Something changes on the machine. -/
  | outside (change : Machine → Machine)

/-- What a step answers. -/
inductive WatchOut where
  | nothing
  | cycled (outcome : Option Outcome)
  | change (relevant : Bool) (shown : Path) (due : Bool)

/-- A document that is watched. -/
structure Watched where
  document : Document
  cursor : Nat
  running : HostSession
  machine : Machine

def watchWork (document : Document) (cursor : Nat) : WatchStep → Work WatchOut
  | .start => do pure (.cycled (some (← Work.openDocument document cursor)))
  | .compile => do pure (.cycled (← Work.compile))
  | .changed path => do
    let relevant := Watch.isRelevant document.root path
    pure (.change relevant (document.shown path) (← Work.reload document cursor path))
  | .outside _ => pure .nothing

def showStep (plain : Bool) (out : WatchOut) : Work (List Event) := do
  let events := (← get).events
  if plain then Work.logEvents else Work.showEvents
  match out with
  | .cycled (some outcome) => Work.showOutcome outcome
  | _ => pure ()
  pure events

def WatchStep.run (step : WatchStep) (plain : Bool) (w : Watched) :
    Except Fault (WatchOut × List Event) × Watched :=
  let s :=
    match step with
    | .outside change => change w.machine
    | _ => w.machine
  let (result, running, machine) := s.work w.running do
    let out ← watchWork w.document w.cursor step
    pure (out, ← showStep plain out)
  (result, { w with running, machine })

/-- Makes everything ready to open the document of a command line. -/
def prepareWatch (env : Environment) (line : Invocation) (s : Machine) :
    Except Fault Watched × Machine :=
  let prepared : Attempt (Document × HostSession) := do
    let loaded ← Application.loadConfig env line
    let document ← Document.find line.document
    let program ← Application.findProgram env line.verbose loaded.config.backend.typst
    pure (document, HostSession.start env loaded.config program line.verbose)
  let (result, s) := s.attempt prepared
  (result.map fun (document, running) => ⟨document, line.document.cursor.getD 0, running, s⟩, s)

/-! ## In JSON -/

def watchStepOf (j : Json) : Decode WatchStep := do
  match ← str j "do" with
  | "compile" => pure .compile
  | "changed" => pure (.changed ((Disk.pathOf homePlace).join (← path j "path")))
  | "write" =>
    let p ← path j "path"
    let data ← payload (field j "data")
    pure (.outside fun s => { s with disk := overwrite s.disk p data })
  | "remove" =>
    let p ← path j "path"
    pure (.outside fun s => { s with disk := erase s.disk p })
  | "fake" =>
    let standIn ← standInOf j
    pure (.outside fun s => s.install standIn)
  | other => .error ("step " ++ other)

def watchOutJson : WatchOut → Json
  | .nothing => .null
  | .cycled outcome => .ofOption outcomeJson outcome
  | .change relevant shown due =>
    .object [("relevant", .bool relevant), ("relative", pathJson shown), ("due", .bool due)]

def bufferJson (b : Buffer) : Json :=
  .array [pathJson b.path, .string b.content, .nat b.cursor]

/-- What a step did, with what was printed since the last one. -/
def watchEntryJson (out : WatchOut) (events : List Event) (w : Watched) : Json :=
  let session := w.running.session
  .object [("out", watchOutJson out), ("events", .ofList eventJson events),
    ("stdout", .string w.machine.printed), ("buffer", .ofOption bufferJson session.buffer),
    ("markers", .ofList Marker.toJson session.markers),
    ("state", .object (previewMembers false session.engine.state))]

/-- Runs a script; answers its steps, or the fault that ends it. -/
def runWatch (w : Watched) : List (WatchStep × Bool) → Except Fault (List Json)
  | [] => .ok []
  | (step, plain) :: steps =>
    match step.run plain w with
    | (.error fault, _) => .error fault
    | (.ok (out, events), w) =>
      let entry := watchEntryJson out events w
      (runWatch { w with machine := { w.machine with printed := "" } } steps).map (entry :: ·)

end LivePreview.Simulation
