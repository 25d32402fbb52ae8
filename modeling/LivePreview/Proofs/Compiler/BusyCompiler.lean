import LivePreview.Proofs.Compiler.Ranking
import LivePreview.Proofs.Run

/-!
# Calls to the compiler under way

`BusyCompiler` is a compiler with the calls that wait for the system, and with what there
is in the directories of the generations.  In one step a call begins, or a waiting
call gets what it asked for and goes on, or something changes that only the system
sees: a run of the program fills its directory, say.  Which call goes on is left open,
and so is every answer, but for a listing, which tells what is there.
-/

namespace LivePreview.Compiler

open Preview (Progress)

/-- A call that waits.  The calls are numbered in the order in which they begin. -/
structure Task where
  number : Nat
  operation : Operation
  stage : Stage operation

/-- The task of a call, unless it has ended. -/
def Task.next {operation : Operation} (number : Nat)
    (progress : Progress (Stage operation) (Except Failure operation.Answer)) : List Task :=
  progress.next.map fun stage => ⟨number, operation, stage⟩

theorem Task.next_flatMap {α : Type} {operation : Operation}
    (f : {operation : Operation} → Stage operation → List α) (number : Nat)
    (progress : Progress (Stage operation) (Except Failure operation.Answer)) :
    (Task.next number progress).flatMap (fun task => f task.stage) = progress.next.flatMap f := by
  simp [Task.next, List.flatMap_map]

theorem Task.next_numbers {operation : Operation} (number : Nat)
    (progress : Progress (Stage operation) (Except Failure operation.Answer)) :
    ((Task.next number progress).map Task.number).Sublist [number] := by
  cases progress with
  | waits stage => exact List.Sublist.refl _
  | ended result => exact List.nil_sublist _

/-- When a call goes on, a task after it waited before, or is what is left of the call. -/
theorem Task.old_or_next {tasks before after : List Task} {number : Nat} {operation : Operation}
    {stage : Stage operation}
    {progress : Progress (Stage operation) (Except Failure operation.Answer)}
    (waits : tasks = before ++ ⟨number, operation, stage⟩ :: after) {task : Task}
    (mem : task ∈ before ++ Task.next number progress ++ after) :
    task ∈ tasks ∨ ∃ next ∈ progress.next, task = ⟨number, operation, next⟩ := by
  rcases beside_or_next mem with old | new
  · exact .inl (mem_of_beside waits old)
  · obtain ⟨next, continues, rfl⟩ := List.mem_map.mp new
    exact .inr ⟨next, continues, rfl⟩

/-- A compiler, the calls that wait, and what is in the directories. -/
structure BusyCompiler where
  compiler : Compiler
  entries : Entries
  /-- How many calls have begun. -/
  begun : Nat
  tasks : List Task

/-- What the system can answer to a request. -/
def Finds (entries : Entries) : (request : Host.Request) → request.Reply → Prop
  | .list dir, .ok names => Lists entries dir names
  | _, _ => True

namespace BusyCompiler

/-- Nothing has begun. -/
def opened (program : Path) (ppi : Nat) (outDir : Path) (entries : Entries) : BusyCompiler where
  compiler := .start program ppi outDir
  entries
  begun := 0
  tasks := []

/-- The directories that change by themselves: the ones that are drawn into, or removed. -/
def loose (w : BusyCompiler) : List Path :=
  w.tasks.flatMap fun task => task.stage.drawing ++ task.stage.removing

/-- What is done in a step, and where it leaves the call. -/
inductive Act where
  | begins (number : Nat) (call : Call)
      (progress : Progress (Stage call.operation) (Except Failure call.operation.Answer))
  | advances (number : Nat) (operation : Operation) (stage : Stage operation)
      (request : Host.Request) (reply : request.Reply)
      (progress : Progress (Stage operation) (Except Failure operation.Answer))
  | drifts

/-- One step of a call, or of the system. -/
inductive Step : BusyCompiler → Act → BusyCompiler → Prop
  | begins (w : BusyCompiler) (call : Call) :
      Step w (.begins w.begun call (w.compiler.call call).2)
        { w with
          compiler := (w.compiler.call call).1
          begun := w.begun + 1
          tasks := w.tasks ++ Task.next w.begun (w.compiler.call call).2 }
  | advances {w : BusyCompiler} (before : List Task) {after : List Task} {number : Nat}
      {operation : Operation} {stage : Stage operation}
      (waits : w.tasks = before ++ ⟨number, operation, stage⟩ :: after)
      {reply : (stage.request w.compiler).Reply} (finds : Finds w.entries _ reply) :
      Step w (.advances number operation stage _ reply (w.compiler.resume stage reply).2)
        { w with
          compiler := (w.compiler.resume stage reply).1
          tasks := before ++ Task.next number (w.compiler.resume stage reply).2 ++ after }
  | drifts {w : BusyCompiler} {entries : Entries}
      (settles : Settles w.compiler.outDir w.loose w.entries entries) :
      Step w .drifts { w with entries }

theorem Step.alone {w : BusyCompiler} {number : Nat} {operation : Operation}
    (stage : Stage operation) (reply : (stage.request w.compiler).Reply)
    (waits : w.tasks = [⟨number, operation, stage⟩]) (finds : Finds w.entries _ reply) :
    Step w (.advances number operation stage _ reply (w.compiler.resume stage reply).2)
      { w with
        compiler := (w.compiler.resume stage reply).1
        tasks := Task.next number (w.compiler.resume stage reply).2 } := by
  have step := Step.advances [] waits finds
  rwa [List.nil_append, List.append_nil] at step

/-! ## What is seen of a run -/

/-- The directory that is published in a move. -/
def published (move : Move BusyCompiler Act) : List Path :=
  newlyPublished move.before.compiler move.after.compiler

/-- The directory that is made for a compile. -/
def Act.made : Act → List Path
  | .advances _ .compile _ request reply _ => request.makes reply
  | _ => []

def made (move : Move BusyCompiler Act) : List Path :=
  move.act.made

/-- The compile whose pages are drawn in a step: the run of the program has succeeded. -/
def Act.drawn : Act → List Draft
  | .advances _ .compile (.compiling draft) _ _ (.waits (.collecting _ _)) => [draft]
  | _ => []

def drawn (moves : List (Move BusyCompiler Act)) : List Draft :=
  moves.flatMap (·.act.drawn)

/-- What the system is asked for after a step. -/
def asked (c : Compiler) : Act → List Host.Request
  | .begins _ _ progress => progress.next.map (Stage.request c)
  | .advances _ _ _ _ _ progress => progress.next.map (Stage.request c)
  | .drifts => []

def removed (move : Move BusyCompiler Act) : List Path :=
  (asked move.after.compiler move.act).flatMap Host.Request.removes

theorem removed_begins (w w' : BusyCompiler) (number : Nat) (call : Call)
    (progress : Progress (Stage call.operation) (Except Failure call.operation.Answer)) :
    removed ⟨w, .begins number call progress, w'⟩ = progress.next.flatMap Stage.removing := by
  simp only [removed, asked, List.flatMap_map, Stage.request_removes]

theorem removed_advances (w w' : BusyCompiler) (number : Nat) (operation : Operation)
    (stage : Stage operation) (request : Host.Request) (reply : request.Reply)
    (progress : Progress (Stage operation) (Except Failure operation.Answer)) :
    removed ⟨w, .advances number operation stage request reply progress, w'⟩ =
      progress.next.flatMap Stage.removing := by
  simp only [removed, asked, List.flatMap_map, Stage.request_removes]

end BusyCompiler

end LivePreview.Compiler
