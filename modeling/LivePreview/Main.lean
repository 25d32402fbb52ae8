import LivePreview.Application.Run
import LivePreview.CommandLine.Usage
import LivePreview.Page.Decoder
import Std.Time.DateTime.Timestamp

/-!
# The command line

The outer layer: it asks the system what the application asks, and decides nothing
itself.  It has no way to start another program, so every run of the compiler is
refused.
-/

attribute [local instance] LivePreview.pngDecoder

namespace LivePreview.Host

def systemError : IO.Error → SystemError
  | .noFileOrDirectory .. => .notFound
  | .alreadyExists .. => .exists
  | .inappropriateType _ code _ => if code = 20 then .notDirectory else .isDirectory
  | .resourceBusy .. => .notEmpty
  | .unsatisfiedConstraints .. => .notEmpty
  | _ => .permissionDenied

/-- The result of an access to the system, or the error of it. -/
def attempt {α : Type} (action : IO α) : IO (Except SystemError α) := do
  try pure (.ok (← action))
  catch e => pure (.error (systemError e))

def entryKind (path : Path) : IO EntryKind := do
  match (← (← IO.FS.realPath path.text).metadata).type with
  | .dir => pure .directory
  | _ => pure .file

def answer : (request : Request) → IO request.Reply
  | .read path => attempt (IO.FS.readBinFile path.text)
  | .write path data => attempt (IO.FS.writeBinFile path.text data)
  | .makeDirectories path => attempt (IO.FS.createDirAll path.text)
  | .removeTree path => attempt (IO.FS.removeDirAll path.text)
  | .list path => attempt do
    let entries ← (← IO.FS.realPath path.text).readDir
    pure (entries.toList.map fun entry => entry.fileName)
  | .inspect path => attempt (entryKind path)
  | .canonical path => attempt do
    pure ⟨(← IO.FS.realPath path.text).toString⟩
  | .isProgram path => do
    match ← attempt (entryKind path) with
    | .ok .file => pure true
    | _ => pure false
  | .run _ _ => pure (.error .permissionDenied)
  | .print text => do
    let out ← IO.getStdout
    out.putStr text
    out.flush
  | .complain text => IO.eprint text
  | .time => do
    let now ← Std.Time.Timestamp.now
    pure (Console.clock now.toSecondsSinceUnixEpoch.val.toNat)

def surroundings : IO Environment := do
  let programs := ((← IO.getEnv "PATH").getD "").splitOn ":"
  pure {
    current := ⟨(← IO.currentDir).toString⟩
    home := ← IO.getEnv "HOME"
    temporary := ⟨(← IO.getEnv "TMPDIR").getD "/tmp"⟩
    programs := programs.map Path.mk
    process := toString (← IO.monoNanosNow) }

end LivePreview.Host

def main (arguments : List String) : IO UInt32 := do
  match LivePreview.CommandLine.read arguments with
  | .ok line =>
    let program := LivePreview.Application.execute (← LivePreview.Host.surroundings) line
    pure (UInt32.ofNat (← program.run LivePreview.Host.answer))
  | .error .version =>
    IO.print LivePreview.Application.versionLine
    pure 0
  | .error rejection =>
    if rejection.isAnswer then
      IO.print LivePreview.CommandLine.usageText
      pure 0
    else
      IO.eprintln s!"error: {rejection.reason}"
      pure 2
