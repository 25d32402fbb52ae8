import LivePreview.Host.Program
import Mathlib.Control.Lawful

/-!
# Programs on a system

What a program does on a system is put together from what its parts do (`run_bind`).
-/

namespace LivePreview.Host

namespace Program

variable {m : Type → Type} [Monad m] [LawfulMonad m] {α β : Type}
  (answer : (request : Request) → m request.Reply)

omit [LawfulMonad m] in
@[simp] theorem run_pure (a : α) : (pure a : Program α).run answer = pure a := rfl

@[simp] theorem run_bind (program : Program α) (next : α → Program β) :
    (program >>= next).run answer = program.run answer >>= fun a => (next a).run answer := by
  show (program.bind next).run answer = _
  induction program with
  | done a => exact (pure_bind a fun a => (next a).run answer).symm
  | ask request rest ih => simp only [bind, run, bind_assoc, ih]

@[simp] theorem run_request (request : Request) :
    (Program.request request).run answer = answer request :=
  bind_pure (m := m) (answer request)

theorem run_isThere (path : Path) :
    (isThere path).run answer = (fun reply => reply.isOk) <$> answer (.inspect path) := by
  rw [isThere, run_bind, run_request, map_eq_pure_bind]
  refine bind_congr fun reply => ?_
  cases reply <;> rfl

/-- Tests that only look find the first that passes. -/
theorem run_find {test : α → Program Bool} {passes : α → Bool}
    (tells : ∀ a, (test a).run answer = pure (passes a)) (l : List α) :
    (find test l).run answer = pure (l.find? passes) := by
  induction l with
  | nil => rfl
  | cons a l ih =>
    rw [find, run_bind, tells, pure_bind, List.find?_cons]
    cases passes a with
    | true => rfl
    | false => exact ih

end Program

/-- A system that refuses everything. -/
def refuse : (request : Request) → request.Reply
  | .read _ => .error .permissionDenied
  | .write _ _ => .error .permissionDenied
  | .makeDirectories _ => .error .permissionDenied
  | .removeTree _ => .error .permissionDenied
  | .list _ => .error .permissionDenied
  | .inspect _ => .error .permissionDenied
  | .canonical _ => .error .permissionDenied
  | .isProgram _ => false
  | .run _ _ => .error .permissionDenied
  | .print _ => ()
  | .complain _ => ()
  | .time => ""

end LivePreview.Host
