import LivePreview.Application.Commands
import LivePreview.Application.Watch

/-!
# The program

`run` does what a command line asks for, as a program that may run on any system.
-/

namespace LivePreview.Application

open CommandLine (Invocation)
open Host (Environment Program)

variable [ImageDecoder]

def dispatch (env : Environment) (line : Invocation) : Attempt Unit := do
  let config := (← loadConfig env line).config
  match line.command with
  | .preview format => preview env config line.verbose line.document format
  | .watch _ => watch env config line.verbose line.document
  | .export kind pages output =>
    exportDocument env config line.verbose line.document kind pages output

/-- Carries a command out; answers the fault it ends with, if there is one. -/
def run (env : Environment) (line : Invocation) : Program (Option Fault) := do
  match ← (dispatch env line).run with
  | .ok _ => pure none
  | .error fault => pure (some fault)

/-- Carries a command out and prints the fault it ends with; answers the exit code. -/
def execute (env : Environment) (line : Invocation) : Program Nat := do
  match ← run env line with
  | none => pure 0
  | some fault =>
    Program.request (.complain fault.report)
    pure 1

def versionLine : String :=
  "folio 0.1.0\n"

end LivePreview.Application
