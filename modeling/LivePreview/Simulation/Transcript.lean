import LivePreview.Interchange
import LivePreview.Simulation.Script

/-!
# Transcripts

How what happened in a simulated world is written in JSON: the ends of operations,
the events, the calls that were made, and the state that is left.
-/

namespace LivePreview.Simulation

open Preview (Outcome Plan)
open Session (SaveOutcome)

def texts (items : List String) : Json :=
  .ofList .string items

def nats (items : List Nat) : Json :=
  .ofList .nat items

def pathJson (p : Path) : Json :=
  .string p.text

/-! ## Ends of operations -/

def failureMembers (f : Failure) : List (String × Json) :=
  [("error", .string f.kind.name), ("message", .string f.message)] ++
    match f with
    | .compile diagnostics => [("diagnostics", .ofList Diagnostic.toJson diagnostics)]
    | _ => []

def resultJson {α : Type} (encode : α → Json) : Except Failure α → Json
  | .ok a => .object [("ok", encode a)]
  | .error f => .object (failureMembers f)

def unitJson (_ : Unit) : Json :=
  .null

def planMembers : Plan → List (String × Json)
  | .full => [("plan", .string "full")]
  | .single i => [("plan", .string "single"), ("page", .nat i)]

def outcomeJson : Outcome → Json
  | .superseded => .string "superseded"
  | .failed kind => .object [("failed", .string kind.name)]
  | .rendered r => .object [("rendered", .object (planMembers r.plan ++
      [("total", .nat r.total), ("changed", nats r.changed), ("hits", .nat r.hits),
        ("misses", .nat r.misses)]))]

def saveJson : SaveOutcome → Json
  | .saved => .string "saved"
  | .clean => .string "clean"
  | .inProgress => .string "in_progress"
  | .failed kind => .object [("failed", .string kind.name)]

def endedJson : Ended → Json
  | .outcome o => outcomeJson o
  | .jump j => .ofOption Jump.toJson j
  | .result (.opened r) => resultJson unitJson r
  | .result (.selected r) => resultJson (Json.ofOption outcomeJson) r
  | .result (.cycled o) => .ofOption outcomeJson o
  | .result (.saved o) => saveJson o
  | .result .autoSaved => .null
  | .result (.exported r) => resultJson pathJson r
  | .result (.clicked j) => .ofOption Jump.toJson j

mutual

def outJson : StepOut → Json
  | .nothing => .null
  | .flag b => .bool b
  | .ended e => endedJson e
  | .markers ms => .ofList Marker.toJson ms
  | .text t => .ofOption .string t
  | .forked branches => .array (branchesJson branches)
  | .savedDuring save outs => .object [("save", endedJson save), ("during", .array (outsJson outs))]

def outsJson : List StepOut → List Json
  | [] => []
  | out :: outs => outJson out :: outsJson outs

/-- The answers of steps with the times at which they ended. -/
def branchJson : List (Nat × StepOut) → List Json
  | [] => []
  | (t, out) :: outs => .array [.nat t, outJson out] :: branchJson outs

def branchesJson : List (List (Nat × StepOut)) → List Json
  | [] => []
  | outs :: branches => .array (branchJson outs) :: branchesJson branches

end

/-! ## Events and calls -/

def levelName : Level → String
  | .info => "info"
  | .success => "success"
  | .error => "error"

def eventJson : Event → Json
  | .phase p => .object [("phase", .string p.label)]
  | .diagnostics markers => .object [("diagnostics", .ofList Marker.toJson markers)]
  | .pagesChanged indices total =>
    .object [("pages_changed", nats indices), ("total", .nat total)]
  | .positionChanged p => .object [("position", p.toJson)]
  | .revealCursor file offset => .object [("reveal", pathJson file), ("offset", .nat offset)]
  | .openUrl url => .object [("open_url", .string url)]
  | .notify level message =>
    .object [("notify", .string (levelName level)), ("message", .string message)]

/-- A call with its arguments.  The toy backend notes fewer of them. -/
def callJson (toy : Bool) (call : Call) : Json :=
  let arguments : List Json :=
    match call with
    | .persistSource p text => [pathJson p, .string text]
    | .compile | .pageCount | .renderAllPages => []
    | .renderPage i => [.nat i]
    | .resolveCursorPosition offset text p =>
      if toy then [.nat offset] else [.nat offset, .string text, pathJson p]
    | .resolveClick text page x y =>
      if toy then [.nat page] else [.string text, .nat page, .float x, .float y]
    | .openWorkspace p | .setMainDocument p => [pathJson p]
    | .createFile p text => if toy then [pathJson p] else [pathJson p, .string text]
    | .export format output => [format.toJson, pathJson output]
  .array (.string call.operation.name :: arguments)

/-! ## States -/

/-- A slot with its key and the size of its image. -/
def slotJson (s : Preview.Slot) : Json :=
  .array [.string s.key.text, .nat s.image.width, .nat s.image.height]

def spelledSlot (s : Preview.Slot) : Json :=
  .array [.nat s.key.index, .string (Toy.spell s.image)]

def previewMembers (toy : Bool) (s : Preview.State) : List (String × Json) :=
  [("phase", .string s.phase.name), ("page_count", .nat s.pages.length),
    ("pages", .ofList (if toy then spelledSlot else slotJson) s.pages),
    ("diagnostics", .ofList Diagnostic.toJson s.diagnostics),
    ("markers", .ofList Marker.toJson s.markers), ("position", s.position.toJson),
    ("last_error", .ofOption .string s.lastError), ("cache_entries", .nat s.cache.size),
    ("hits", .nat s.cache.hits), ("misses", .nat s.cache.misses)]

def sessionMembers (s : Session) : List (String × Json) :=
  [("root", .ofOption pathJson s.root), ("main", .ofOption pathJson s.main),
    ("file", .ofOption pathJson s.currentFile), ("dirty", .bool s.isDirty),
    ("cursor", .ofOption .nat (s.buffer.map Buffer.cursor)),
    ("content", .ofOption .string (s.buffer.map Buffer.content))]

def pageJson (page : Page) : Json :=
  .object [("key", .string (PageKey.of page.data page.index).text), ("width", .nat page.width),
    ("height", .nat page.height), ("bytes", .nat page.data.size),
    ("debug", .string page.describe)]

def replyJson : (call : Call) → call.Reply → Json
  | .persistSource _ _, r => resultJson unitJson r
  | .compile, r => resultJson (Json.ofList Diagnostic.toJson) r
  | .pageCount, r => resultJson Json.nat r
  | .renderAllPages, r => resultJson (Json.ofList pageJson) r
  | .renderPage _, r => resultJson pageJson r
  | .resolveCursorPosition _ _ _, r => resultJson (Json.ofOption Position.toJson) r
  | .resolveClick _ _ _ _, r => resultJson Jump.toJson r
  | .openWorkspace _, r => resultJson unitJson r
  | .setMainDocument _, r => resultJson unitJson r
  | .createFile _ _, r => resultJson unitJson r
  | .export _ _, r => resultJson pathJson r

end LivePreview.Simulation
