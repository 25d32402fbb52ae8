import LivePreview.Compiler.Answer
import LivePreview.Simulation.Machine

/-!
# Something happens during a compile

`overtake` starts a compile and stops it while the compiler program is running,
after its last page.  Then something else is done, to the end; only then the
program ends and the compile goes on.
-/

namespace LivePreview.Simulation

open Compiler (Stage)

/-- A compile up to the run of the program: how it ended before, or what is about to
    run. -/
def untilRun (s : Machine) (c : Compiler) (stage : Stage .compile) :
    (Except Failure (List Diagnostic) ⊕ Compiler.Draft) × Compiler × Machine :=
  match stage with
  | .compiling draft => (.inr draft, c, s)
  | stage =>
    let (reply, s) := s.answer (stage.request c)
    match h : c.resume stage reply with
    | (c, .ended result) => (.inl result, c, s)
    | (c, .waits next) =>
      have := Compiler.resume_rank h
      untilRun s c next
termination_by stage.rank

/-- Starts a compile, up to the run of the program. -/
def startUntilRun (s : Machine) (c : Compiler) :
    (Except Failure (List Diagnostic) ⊕ Compiler.Draft) × Compiler × Machine :=
  match c.startCompile with
  | (c, .ended result) => (.inl result, c, s)
  | (c, .waits stage) => untilRun s c stage

/-- Carries out a compile, with something else done during the run of the program; or
    after the compile, if the program is not run.  Answers the results of both. -/
def overtake {α : Type} (s : Machine) (c : Compiler)
    (during : Machine → Compiler → α × Compiler × Machine) :
    Except Failure (List Diagnostic) × α × Compiler × Machine :=
  match startUntilRun s c with
  | (.inl result, c, s) => (result, during s c)
  | (.inr draft, c, s) =>
    let arguments := c.drawArguments draft
    match s.beginRun c.program arguments with
    | .error e =>
      let ((result, c), s) := s.perform (Compiler.conclude (c.afterCompile draft (.error e)))
      (result, during s c)
    | .ok (standIn, words, s) =>
      let (a, c, s) := during s c
      let (run, s) := s.concludeRun standIn words arguments
      let ((result, c), s) := s.perform (Compiler.conclude (c.afterCompile draft (.ok run)))
      (result, a, c, s)

end LivePreview.Simulation
