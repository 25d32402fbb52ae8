import LivePreview.Simulation.Scenario
import LivePreview.Simulation.Transcript

/-!
# Scripts for the compiler

A script for a compiler alone, without an engine: calls, one after the other or one
during another, single pieces of a compile, and changes of the disk from outside.
-/

namespace LivePreview.Simulation

open Decode

/-- A step of a script for a compiler. -/
inductive CompilerStep where
  /-- Put another stand-in compiler in its place. -/
  | install (standIn : StandIn)
  | write (path : Path) (data : ByteArray)
  | read (path : Path)
  | call (call : Call)
  /-- What would be compiled. -/
  | target
  /-- Start a generation. -/
  | prepare
  /-- The page files in a directory. -/
  | collect (dir : Path)
  | publish (generation : Nat) (dir : Path) (pages : List Path)
  | forget
  /-- A compile with a step during the run of the program. -/
  | overtakeBy (during : CompilerStep)

/-- What a step answers. -/
inductive CompilerOut where
  | nothing
  | text (text : Option String)
  | replied (call : Call) (reply : call.Reply)
  | target (target : Except Failure Compiler.Target)
  | prepared (result : Except Failure (Nat × Path))
  | collected (pages : Option (List Path))
  /-- A directory that is no longer needed. -/
  | stale (dir : Option Path)
  | overtaken (reply : Except Failure (List Diagnostic)) (during : CompilerOut)

def discardAll (c : Compiler) (s : Machine) : List Path → Compiler × Machine
  | [] => (c, s)
  | dir :: rest =>
    let (reply, s) := s.answer (.removeTree dir)
    discardAll (c.noteRemoval dir reply) s rest

def CompilerStep.run : CompilerStep → Machine → Compiler → CompilerOut × Compiler × Machine
  | .install standIn, s, c => (.nothing, c, s.install standIn)
  | .write path data, s, c => (.nothing, c, { s with disk := overwrite s.disk path data })
  | .read path, s, c => (.text (s.disk.shownText path), c, s)
  | .call asked, s, c =>
    let ((reply, c), s) := s.perform (c.answer asked)
    (.replied asked reply, c, s)
  | .target, s, c => (.target c.target, c, s)
  | .prepare, s, c =>
    let (generation, dir, c) := c.nextGeneration
    let (reply, s) := s.answer (.makeDirectories dir)
    match reply with
    | .ok _ => (.prepared (.ok (generation, dir)), c, s)
    | .error e => (.prepared (.error (.io dir e)), c, s)
  | .collect dir, s, c =>
    (.collected (((s.disk.list dir).map (Compiler.pageFiles dir)).toOption), c, s)
  | .publish generation dir pages, s, c =>
    let (stale, c) := c.publish generation dir pages
    (.stale stale, c, s)
  | .forget, s, c =>
    let (stale, c) := c.forget
    let (c, s) := discardAll c s stale
    (.nothing, c, s)
  | .overtakeBy during, s, c =>
    let (reply, out, c, s) := overtake s c during.run
    (.overtaken reply out, c, s)

/-! ## In JSON -/

def callOf (name : String) (j : Json) : Decode Call := do
  match name with
  | "persist" => pure (.persistSource (← path j "path") (← str j "text"))
  | "compile" => pure .compile
  | "page_count" => pure .pageCount
  | "render_all" => pure .renderAllPages
  | "render_page" => pure (.renderPage (← nat j "index"))
  | "cursor" => pure (.resolveCursorPosition 3 "text" ⟨"main.typ"⟩)
  | "click" => pure (.resolveClick "text" 0 1.0 1.0)
  | "open_workspace" => pure (.openWorkspace (← path j "path"))
  | "set_main" => pure (.setMainDocument (← path j "path"))
  | "create_file" => pure (.createFile (← path j "path") (← str j "text"))
  | "export" => pure (.export (← formatOf (field j "format")) (← path j "output"))
  | other => .error ("step " ++ other)

def plainStepOf (j : Json) : Decode CompilerStep := do
  match ← str j "do" with
  | "fake" => pure (.install (← standInOf j))
  | "write" => pure (.write (← path j "path") (← payload (field j "data")))
  | "read" => pure (.read (← path j "path"))
  | "targets" => pure .target
  | "begin" => pure .prepare
  | "collect" => pure (.collect (← path j "path"))
  | "publish" =>
    let pages ← (list j "pages").mapM fun p => (orFail "pages" p.string?).map Path.mk
    pure (.publish (← nat j "generation") (← path j "dir") pages)
  | "forget" => pure .forget
  | name => pure (.call (← callOf name j))

def compilerStepOf (j : Json) : Decode CompilerStep :=
  match j.get? "with" with
  | some during => (plainStepOf during).map .overtakeBy
  | none => plainStepOf j

def compilerOutJson : CompilerOut → Json
  | .nothing => .null
  | .text text => .ofOption .string text
  | .replied call reply => replyJson call reply
  | .target target =>
    resultJson (fun (t : Compiler.Target) => .array [pathJson t.root, pathJson t.main]) target
  | .prepared result =>
    resultJson (fun (generation, dir) => .array [.nat generation, pathJson dir]) result
  | .collected (some pages) => .ofList pathJson pages
  | .collected none => .object [("error", .string "NotFound")]
  | .stale dir => .ofOption pathJson dir
  | .overtaken reply during => .array [replyJson .compile reply, compilerOutJson during]

def compilerMembers (c : Compiler) : List (String × Json) :=
  [("generation", .nat c.generation), ("root", .ofOption pathJson c.root),
    ("main", .ofOption pathJson c.main), ("pages", .ofList pathJson c.pages),
    ("published", .ofOption pathJson c.published), ("retired", .ofOption pathJson c.retired)]

end LivePreview.Simulation
