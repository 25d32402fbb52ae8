import LivePreview.Backend.Call
import LivePreview.Disk.Basic

/-!
# A backend that follows a script

The scripted backend answers what it was told to: each operation has a queue of
planned replies, and when the queue is empty there is a default.  A reply is fixed
when the call is made, and may be delivered later.
-/

namespace LivePreview

/-- How a backend answers a call. -/
structure Response (call : Call) where
  /-- The time until the answer comes, in milliseconds. -/
  delay : Nat
  /-- A file that is written just before the answer comes, and whose failure becomes
      the answer. -/
  write : Option (Path × String)
  reply : call.Reply

/-- A planned reply: a failure, an answer, or the default, after some time. -/
structure Planned (operation : Operation) where
  delay : Nat
  failure : Option Failure
  answer : Option operation.Answer

/-- A scripted backend. -/
structure Scripted where
  diagnostics : List Diagnostic
  pages : List ByteArray
  cursor : Option Position
  queue : (operation : Operation) → List (Planned operation)

namespace Scripted

def empty : Scripted :=
  ⟨[], [], none, fun _ => []⟩

def setQueue (b : Scripted) (operation : Operation) (planned : List (Planned operation)) :
    Scripted :=
  { b with queue := fun other => if h : operation = other then h ▸ planned else b.queue other }

def enqueue (b : Scripted) (operation : Operation) (planned : List (Planned operation)) :
    Scripted :=
  b.setQueue operation (b.queue operation ++ planned)

/-- The first planned reply of an operation, and the backend without it. -/
def dequeue (b : Scripted) (operation : Operation) : Option (Planned operation) × Scripted :=
  match b.queue operation with
  | [] => (none, b)
  | planned :: rest => (some planned, b.setQueue operation rest)

def page? (b : Scripted) (index : Nat) : Option Page :=
  b.pages[index]?.map fun data => ⟨index, 0, 0, data⟩

def allPages (b : Scripted) : List Page :=
  b.pages.zipIdx.map fun (data, index) => ⟨index, 0, 0, data⟩

/-- The reply to a call for which nothing is planned, and the disk after it. -/
def default (b : Scripted) (d : Disk) : (call : Call) → call.Reply × Disk
  | .persistSource _ _ => (.ok (), d)
  | .compile => (.ok b.diagnostics, d)
  | .pageCount => (.ok b.pages.length, d)
  | .renderAllPages => (.ok b.allPages, d)
  | .renderPage index =>
    match b.page? index with
    | some page => (.ok page, d)
    | none => (.error (.transport .renderPage "page out of range"), d)
  | .resolveCursorPosition _ _ _ => (.ok b.cursor, d)
  | .resolveClick _ _ _ _ => (.ok .nowhere, d)
  | .openWorkspace _ => (.ok (), d)
  | .setMainDocument _ => (.ok (), d)
  | .createFile path text =>
    match d.writeText path text with
    | .ok d => (.ok (), d)
    | .error e => (.error (.io path e), d)
  | .export format output => (.ok (format.outputPath output), d)

def respond (b : Scripted) (d : Disk) (call : Call) : Response call × Scripted × Disk :=
  match b.dequeue call.operation with
  | (none, b) =>
    let (reply, d) := b.default d call
    (⟨0, none, reply⟩, b, d)
  | (some planned, b) =>
    match planned.failure, planned.answer with
    | some f, _ => (⟨planned.delay, none, .error f⟩, b, d)
    | none, some answer => (⟨planned.delay, none, .ok answer⟩, b, d)
    | none, none =>
      let (reply, d) := b.default d call
      (⟨planned.delay, none, reply⟩, b, d)

end Scripted

end LivePreview
