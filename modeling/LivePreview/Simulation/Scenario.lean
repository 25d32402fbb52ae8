import LivePreview.Interchange
import LivePreview.Json.Decode
import LivePreview.Simulation.Overtake
import LivePreview.Simulation.Script

/-!
# Scenarios

A scenario describes a simulated world and what is to happen in it, in JSON: the
files on disk, the answers of the backend, the stand-in compiler, and the steps of
a script.
-/

namespace LivePreview.Simulation

open Decode

/-! ## Domain values -/

def diagnosticsOf (j : Json) : Decode (List Diagnostic) :=
  match j with
  | .null => .ok []
  | j => orFail "diagnostics" (Json.list? Diagnostic.ofJson? j)

def positionOf (j : Json) : Decode (Option Position) :=
  match j with
  | .null => .ok none
  | j => (orFail "position" (Position.ofJson? j)).map some

def rangeOf (j : Json) : Decode (Option PageRange) :=
  match j with
  | .null => .ok none
  | j => (orFail "range" (PageRange.ofJson? j)).map some

def formatOf (j : Json) : Decode ExportFormat :=
  orFail "format" (ExportFormat.ofJson? j)

def jumpOf (j : Json) : Decode Jump :=
  orFail "jump" (Jump.ofJson? j)

def operationOf (name : String) : Decode Operation :=
  orFail ("operation " ++ name) (Operation.ofName? name)

def failureOf (operation : Operation) (j : Json) : Decode Failure := do
  match ← str j "kind" with
  | "Transport" => pure (.transport operation (← str j "message"))
  | "Timeout" => pure (.timeout operation (← nat j "after_ms"))
  | "Compile" => pure (.compile (← diagnosticsOf (field j "diagnostics")))
  | "MappingNotFound" => pure .mappingNotFound
  | "Io" => pure (.io (← path j "path") .scripted)
  | "Decode" => pure (.decode (← nat j "index") (← str j "message"))
  | kind => .error kind

def pageOf (j : Json) : Decode Page := do
  pure ⟨← nat j "index", natD j "width" 0, natD j "height" 0, ← payload (field j "data")⟩

def snapshotOf (j : Json) : Decode Snapshot := do
  pure ⟨⟨strD j "path" "main.typ"⟩, ← str j "text", natD j "cursor" 0⟩

/-! ## Files -/

/-- The disk with a file and the directories above it, or with a directory. -/
def addEntry (d : Disk) (name : String) (content : Json) : Decode Disk :=
  let p : Path := ⟨name⟩
  let made (d : Disk) (dir : Path) : Disk := (d.makeDirectories dir).toOption.getD d
  match content with
  | .object [("dir", _)] => pure (made d p)
  | content => do
    let d := match p.parent? with
      | some dir => made d dir
      | none => d
    pure ((d.write p (← payload content)).toOption.getD d)

def addFiles (d : Disk) (files : Json) : Decode Disk :=
  match files with
  | .object members => members.foldlM (fun d (name, content) => addEntry d name content) d
  | _ => .ok d

def homePlace : Place :=
  ["W"]

/-- A disk with nothing but the directory of the scenario, which is the current one. -/
def emptyDisk : Disk :=
  { (Disk.empty.put homePlace .directory).put ["usr"] .directory with current := homePlace }

def overwrite (d : Disk) (p : Path) (data : ByteArray) : Disk :=
  (d.write p data).toOption.getD d

/-- The disk after a file or directory was removed from outside. -/
def erase (d : Disk) (p : Path) : Disk :=
  ((d.removeFile p).toOption.orElse fun _ => (d.removeTree p).toOption).getD d

/-! ## Backends -/

def plannedOf (operation : Operation) (answer : Json → Decode operation.Answer) (j : Json) :
    Decode (Planned operation) := do
  let failure ←
    match field j "err" with
    | .null => pure none
    | e => pure (some (← failureOf operation e))
  let planned ←
    match j.get? "ok" with
    | some value => pure (some (← answer value))
    | none => pure none
  pure ⟨natD j "delay" 0, failure, planned⟩

def answerOf : (operation : Operation) → Json → Decode operation.Answer
  | .persistSource, _ => .ok ()
  | .compile, j => diagnosticsOf j
  | .pageCount, j => orFail "count" j.nat?
  | .renderAllPages, j => do (← orFail "pages" j.array?).mapM pageOf
  | .renderPage, j => pageOf j
  | .resolveCursorPosition, j => positionOf j
  | .resolveClick, j => jumpOf j
  | .openWorkspace, _ => .ok ()
  | .setMainDocument, _ => .ok ()
  | .createFile, _ => .ok ()
  | .export, j => (orFail "path" j.string?).map Path.mk

def scriptedChange (j : Json) : Decode (Scripted → Scripted) := do
  let diagnostics ← (j.get? "diagnostics").mapM diagnosticsOf
  let pages ← (j.get? "pages").mapM fun ps => do (← orFail "pages" ps.array?).mapM payload
  let cursor ← (j.get? "cursor").mapM positionOf
  let queues : List (Scripted → Scripted) ←
    match field j "queue" with
    | .object members => members.mapM fun (name, replies) => do
      let operation ← operationOf name
      let replies ← orFail "queue" replies.array?
      let planned ← replies.mapM (plannedOf operation (answerOf operation))
      pure fun b => b.enqueue operation planned
    | _ => pure []
  pure fun b =>
    let b := { b with
      diagnostics := diagnostics.getD b.diagnostics
      pages := pages.getD b.pages
      cursor := cursor.getD b.cursor }
    queues.foldl (fun b f => f b) b

def toyChange (j : Json) : Decode (Toy.Backend → Toy.Backend) := do
  let delays ← (list j "delay").mapM fun d =>
    match d with
    | .array [.string name, ms] => do pure (← operationOf name, ← orFail "delay" ms.nat?)
    | _ => .error "delay"
  let failing ← (list j "fail").mapM fun f => do operationOf (← orFail "fail" f.string?)
  let corrupt ← (list j "corrupt").mapM fun i => orFail "corrupt" i.nat?
  let clicks ← (list j "clicks").mapM jumpOf
  let maps := (field j "map_cursor").bool?
  pure fun b =>
    let b := delays.foldl (fun b (operation, ms) => b.delayNext operation ms) b
    let b := failing.foldl (fun b operation => b.failNext operation) b
    { b with
      corrupt := b.corrupt ++ corrupt
      mapsCursor := maps.getD b.mapsCursor
      clicks := b.clicks ++ clicks }

def backendChange (toy : Bool) (j : Json) : Decode (WorldBackend → WorldBackend) := do
  if toy then
    let f ← toyChange j
    pure fun
      | .toy b => .toy (f b)
      | other => other
  else
    let f ← scriptedChange j
    pure fun
      | .scripted b => .scripted (f b)
      | other => other

def worldOf (toy : Bool) (j : Json) : Decode World := do
  let options := field j "options"
  let change ← backendChange toy (field j "backend")
  let backend := change (if toy then .toy Toy.Backend.start else .scripted Scripted.empty)
  let disk ← addFiles emptyDisk (field j "files")
  pure (World.start backend disk (natD options "timeout_ms" 10000)
    (natD options "cache_capacity" 256))

/-! ## Scripts -/

/-- A step of a script.  `depth` bounds the nesting of steps in steps. -/
def stepOf (toy session : Bool) (depth : Nat) (j : Json) : Decode ScriptStep := do
  match depth with
  | 0 => .error "nesting"
  | depth + 1 =>
    match ← str j "do" with
    | "wait" => pure (.wait (← nat j "ms"))
    | "backend" => pure (.change (← backendChange toy j))
    | "par" =>
      let branches ← (list j "branches").mapM fun b => do
        (← orFail "branch" b.array?).mapM (stepOf toy session depth)
      pure (.fork branches)
    | "reset" => pure .reset
    | "compile" => if session then pure (.act .compile) else pure (.compile (← snapshotOf j))
    | "render" => if session then pure (.act .render) else pure (.render (← snapshotOf j))
    | "click" =>
      let page ← nat j "page"
      let x ← float j "x"
      let y ← float j "y"
      if session then pure (.act (.click page x y))
      else pure (.click (← str j "text") page x y)
    | "markers" => if session then pure .markers else pure (.markersOn (← str j "text"))
    | "open_workspace" => pure (.act (.openWorkspace (← path j "path")))
    | "open_file" => pure (.act (.openFile (← path j "path")))
    | "create_file" => pure (.act (.createFile (← path j "path") (← str j "text")))
    | "set_main" => pure (.act (.setMain (← path j "path")))
    | "edit" => pure (.edit (← str j "text") (← nat j "cursor"))
    | "cursor" => pure (.moveCursor (← nat j "offset"))
    | "export" => pure (.act (.export (← formatOf (field j "format")) (← path j "output")))
    | "auto_save" => pure (.act (.autoSave (← nat j "interval") (← nat j "stop")))
    | "save" =>
      let explicit := flag j "explicit"
      match (field j "during").array? with
      | some steps => pure (.saveDuring explicit (← steps.mapM (stepOf toy session depth)))
      | none => pure (.act (.save explicit))
    | "write" =>
      let p ← path j "path"
      let data ← payload (field j "data")
      pure (.disk fun d => overwrite d p data)
    | "remove" =>
      let p ← path j "path"
      pure (.disk fun d => erase d p)
    | "mkdir" =>
      let p ← path j "path"
      pure (.disk fun d => (d.makeDirectories p).toOption.getD d)
    | "read" => pure (.read (← path j "path"))
    | other => .error ("step " ++ other)

/-! ## The stand-in compiler -/

def standInOf (j : Json) : Decode StandIn := do
  let complaints ←
    match field j "stderr" with
    | .null => pure ByteArray.empty
    | words => payload words
  let pages ← (list j "pages").mapM fun page =>
    match page with
    | .array [.string label, content] => do pure (label, ← payload content)
    | _ => .error "page"
  let status : Host.ExitStatus :=
    match (field j "signal").nat? with
    | some signal => .killed signal
    | none => .exited (natD j "exit" 0)
  pure ⟨complaints, pages.mergeSort fun a b => a.1 ≤ b.1, flag j "wipe", status⟩

def machineOf (j : Json) : Decode Machine := do
  let disk ← addFiles emptyDisk (field j "files")
  let s := Machine.start disk [⟨"/W/bin"⟩, ⟨"/usr/bin"⟩, ⟨"/bin"⟩] (homePlace ++ ["bin", "typst"])
  match field j "fake" with
  | .null => pure s
  | fake => pure (s.install (← standInOf fake))

end LivePreview.Simulation
