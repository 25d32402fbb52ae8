import LivePreview.Backend.Scripted
import LivePreview.Toy.Layout

/-!
# The toy backend

A backend that compiles with the toy layout.  A call takes effect when it is made:
persisting keeps the text, compiling takes the text persisted last, and pages are
those of the text compiled last.  Any operation can be delayed or made to fail
once, and any page can be made unreadable.
-/

namespace LivePreview.Toy

/-- The state of a toy backend. -/
structure Backend where
  persisted : String
  compiled : Option String
  /-- Delays of the next calls of each operation. -/
  delays : Operation → List Nat
  /-- The operations whose next call fails. -/
  failing : List Operation
  /-- The pages that are unreadable. -/
  corrupt : List Nat
  /-- Whether cursors have a place in the preview. -/
  mapsCursor : Bool
  /-- What the next clicks hit. -/
  clicks : List Jump

namespace Backend

def start : Backend :=
  ⟨"", none, fun _ => [], [], [], true, []⟩

def delayNext (b : Backend) (operation : Operation) (delay : Nat) : Backend :=
  { b with delays := fun other =>
      if other = operation then b.delays other ++ [delay] else b.delays other }

def failNext (b : Backend) (operation : Operation) : Backend :=
  { b with failing := if operation ∈ b.failing then b.failing else operation :: b.failing }

/-- Takes the delay and the failure that are due for a call of an operation. -/
def begin (b : Backend) (operation : Operation) : Nat × Bool × Backend :=
  ((b.delays operation).headD 0, decide (operation ∈ b.failing),
    { b with
      delays := fun other =>
        if other = operation then (b.delays other).tail else b.delays other
      failing := b.failing.filter (· ≠ operation) })

def pages (b : Backend) : List String :=
  (b.compiled.map splitPages).getD []

def page (b : Backend) (index : Nat) (text : String) : Page :=
  let data := if index ∈ b.corrupt then "corrupt".toUTF8 else pagePng text
  ⟨index, max text.utf8ByteSize 1, 1, data⟩

def allPages (b : Backend) : List Page :=
  b.pages.zipIdx.map fun (text, index) => b.page index text

def arranged (operation : Operation) : Failure :=
  .transport operation "scripted failure"

def exportFailure : Failure :=
  .compile [⟨.point 1 1, .error, "scripted export failure", []⟩]

/-- Answers a call, given the delay and whether it is to fail. -/
def answer (b : Backend) (delay : Nat) (fails : Bool) :
    (call : Call) → Response call × Backend
  | .persistSource path text =>
    if fails then (⟨delay, none, .error (.io path .scripted)⟩, b)
    else (⟨delay, none, .ok ()⟩, { b with persisted := text })
  | .compile =>
    if fails then (⟨delay, none, .error (arranged .compile)⟩, b)
    else
      let diagnostics := scanDiagnostics b.persisted
      if diagnostics.any Diagnostic.isError then
        (⟨delay, none, .error (.compile diagnostics)⟩, b)
      else (⟨delay, none, .ok diagnostics⟩, { b with compiled := some b.persisted })
  | .pageCount =>
    (⟨delay, none, if fails then .error (arranged .pageCount) else .ok b.pages.length⟩, b)
  | .renderAllPages =>
    (⟨delay, none, if fails then .error (arranged .renderAllPages) else .ok b.allPages⟩, b)
  | .renderPage index =>
    let reply : Except Failure Page :=
      if fails then .error (arranged .renderPage)
      else
        match b.pages[index]? with
        | some text => .ok (b.page index text)
        | none => .error (.transport .renderPage "page out of range")
    (⟨delay, none, reply⟩, b)
  | .resolveCursorPosition offset text _ =>
    let reply : Except Failure (Option Position) :=
      if fails then .error (arranged .resolveCursorPosition)
      else if b.mapsCursor then
        let (page, line) := locate text offset
        .ok (some ⟨page, 0.0, Float.ofNat line * 10.0⟩)
      else .ok none
    (⟨delay, none, reply⟩, b)
  | .resolveClick _ _ _ _ =>
    if fails then (⟨delay, none, .error (arranged .resolveClick)⟩, b)
    else (⟨delay, none, .ok (b.clicks.headD .nowhere)⟩, { b with clicks := b.clicks.tail })
  | .openWorkspace _ =>
    (⟨delay, none, if fails then .error (arranged .openWorkspace) else .ok ()⟩, b)
  | .setMainDocument _ =>
    if fails then (⟨delay, none, .error (arranged .setMainDocument)⟩, b)
    else (⟨delay, none, .ok ()⟩, { b with compiled := none })
  | .createFile path text =>
    if fails then (⟨delay, none, .error (.io path .scripted)⟩, b)
    else (⟨delay, some (path, text), .ok ()⟩, b)
  | .export format output =>
    if fails then (⟨delay, none, .error exportFailure⟩, b)
    else
      let target := format.outputPath output
      (⟨delay, some (target, b.persisted), .ok target⟩, b)

def respond (b : Backend) (call : Call) : Response call × Backend :=
  let (delay, fails, b) := b.begin call.operation
  b.answer delay fails call

end Backend

end LivePreview.Toy
