import LivePreview.Host.Request
import LivePreview.Text.Utf8

/-!
# Programs

A `Program` is what the application does, as a tree: it is done, or it asks the
system something and goes on with the answer.  A program is a value that can be
reasoned about; `Program.run` gives it a system to run on, which may be a real one
or a simulated one.
-/

namespace LivePreview.Host

/-- A computation that asks the system. -/
inductive Program (α : Type) where
  | done (result : α)
  | ask (request : Request) (next : request.Reply → Program α)

namespace Program

def bind {α β : Type} : Program α → (α → Program β) → Program β
  | .done a, f => f a
  | .ask request next, f => .ask request fun reply => (next reply).bind f

instance : Monad Program where
  pure := .done
  bind := .bind

/-- Runs a program on a system that answers its requests. -/
def run {m : Type → Type} [Monad m] {α : Type} (answer : (request : Request) → m request.Reply) :
    Program α → m α
  | .done a => pure a
  | .ask request next => do
    let reply ← answer request
    (next reply).run answer

/-! ## Single requests -/

def request (request : Request) : Program request.Reply :=
  .ask request .done

/-- The text of a file, which has to be UTF-8. -/
def readText (path : Path) : Program (Except SystemError String) := do
  match ← request (.read path) with
  | .error e => pure (.error e)
  | .ok data =>
    match Text.decode? data with
    | some text => pure (.ok text)
    | none => pure (.error .invalidText)

def writeText (path : Path) (text : String) : Program (Except SystemError Unit) :=
  request (.write path text.toUTF8)

def isThere (path : Path) : Program Bool := do
  match ← request (.inspect path) with
  | .ok _ => pure true
  | .error _ => pure false

def find {α : Type} (test : α → Program Bool) : List α → Program (Option α)
  | [] => pure none
  | a :: rest => do
    if ← test a then pure (some a) else find test rest

end Program

end LivePreview.Host
