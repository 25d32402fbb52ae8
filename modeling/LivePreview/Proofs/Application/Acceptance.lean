import LivePreview.Application.Startup
import LivePreview.Proofs.Host.Runs
import LivePreview.Proofs.Path.Components

/-!
# Documents that are accepted

`Ensures` says what is known of the result of an attempt that succeeds, whatever the system does
meanwhile.  A document that was found is a source on a canonical path, and lies in its root
(`find_accepts`); one of which this is known beforehand is found (`run_find`).
-/

namespace LivePreview

open Host (Program Request)

/-- Whether a path goes down from the root, without a step up. -/
structure Path.IsCanonical (p : Path) : Prop where
  absolute : p.isAbsolute = true
  noUp : .up ∉ p.components

namespace Application

theorem run_lift_request (request : Request) :
    (liftM (Program.request request) : Attempt request.Reply).run =
      Program.request request >>= fun reply => Pure.pure (.ok reply) :=
  rfl

section Ensures

variable {σ α β : Type} {answer : (request : Request) → StateM σ request.Reply} {post : β → Prop}

/-- Whether a result has a property whenever the attempt succeeds on a system. -/
def Ensures (answer : (request : Request) → StateM σ request.Reply) (attempt : Attempt α)
    (post : α → Prop) : Prop :=
  ∀ s a s', (attempt.run.run answer).run s = (.ok a, s') → post a

theorem Ensures.pure {b : β} (holds : post b) : Ensures answer (Pure.pure b) post := by
  rintro s a s' ends
  cases ends
  exact holds

theorem Ensures.throw (fault : Fault) : Ensures answer (MonadExcept.throw fault) post := by
  rintro s a s' ends
  cases ends

theorem Ensures.bind {attempt : Attempt α} {next : α → Attempt β} (known : α → Prop)
    (first : Ensures answer attempt known) (rest : ∀ a, known a → Ensures answer (next a) post) :
    Ensures answer (attempt >>= next) post := by
  rintro s b s' ends
  rw [ExceptT.run_bind, Program.run_bind, StateT.run_bind] at ends
  cases step : (attempt.run.run answer).run s with
  | mk result between =>
    rw [step] at ends
    cases result with
    | ok a => exact rest a (first s a between step) between b s' ends
    | error fault => cases ends

theorem Ensures.request {request : Request} {post : request.Reply → Prop}
    (tells : ∀ s reply s', (answer request).run s = (reply, s') → post reply) :
    Ensures answer (liftM (Program.request request)) post := by
  rintro s reply s' ends
  rw [run_lift_request, Program.run_bind, Program.run_request, StateT.run_bind] at ends
  cases asked : (answer request).run s with
  | mk told between =>
    rw [asked] at ends
    cases ends
    exact tells s told between asked

theorem Ensures.orFault {fault : SystemError → Fault} {reply : Except SystemError β}
    (holds : ∀ b, reply = .ok b → post b) : Ensures answer (orFault fault reply) post := by
  cases reply with
  | ok b => exact .pure (holds b rfl)
  | error e => exact .throw _

end Ensures

variable {σ : Type} {answer : (request : Request) → StateM σ request.Reply}

theorem run_canonical {α : Type} {p q : Path} {fault : SystemError → Fault}
    {next : Path → Attempt α} (reached : answer (.canonical p) = pure (.ok q)) :
    (do next (← orFault fault (← Program.request (.canonical p))) : Attempt α).run.run answer =
      (next q).run.run answer := by
  rw [ExceptT.run_bind, run_lift_request, Program.run_bind, Program.run_bind, Program.run_request,
    reached, pure_bind]
  rfl

namespace Document

/-- What is known of a document that was found. -/
structure IsAccepted (d : Document) : Prop where
  main : d.main.IsCanonical
  root : d.root.isAbsolute = true ∨ d.main.parent? = some d.root
  source : (DocumentKind.ofPath d.main).isCompilable = true
  inside : d.main.startsWith d.root = true

theorem find_accepts
    (canonical : ∀ p q s s', (answer (.canonical p)).run s = (.ok q, s') → q.IsCanonical)
    (options : CommandLine.DocumentOptions) : Ensures answer (find options) IsAccepted := by
  have asks (p : Path) : Ensures answer (liftM (Program.request (.canonical p)))
      fun reply => ∀ q, reply = .ok q → q.IsCanonical :=
    .request fun s reply s' tells q same => canonical p q s s' (same ▸ tells)
  have stops {α : Type} (fault : Fault) (next : α → Attempt Document) :
      Ensures answer (throw fault >>= next) IsAccepted :=
    .bind (fun _ => False) (.throw fault) nofun
  unfold find
  refine .bind _ (asks options.file) fun reply replied => ?_
  refine .bind _ (.orFault replied) fun main mainCanonical => ?_
  dsimp only
  split
  · exact stops _ _
  · next source =>
    rw [Bool.not_eq_true', Bool.not_eq_false] at source
    have ends (root : Path) (rooted : root.isAbsolute = true ∨ main.parent? = some root) :
        Ensures answer (if (!main.startsWith root) = true then do
          let _ ← (throw (Fault.outsideRoot main root) : Attempt Unit)
          pure ⟨root, main⟩ else pure ⟨root, main⟩) IsAccepted := by
      split
      · exact stops _ _
      · next inside =>
        rw [Bool.not_eq_true', Bool.not_eq_false] at inside
        exact .pure ⟨mainCanonical, rooted, source, inside⟩
    split
    · next root named =>
      refine .bind _ (asks root) fun reply replied => ?_
      refine .bind _ (.orFault replied) fun root canonical => ?_
      exact ends root (.inl canonical.absolute)
    · split
      · next dir above =>
        refine .bind (· = dir) (.pure rfl) fun root same => ?_
        exact ends root (.inr (same ▸ above))
      · exact stops _ _

theorem run_find {options : CommandLine.DocumentOptions} {root main : Path}
    (reached : answer (.canonical options.file) = pure (.ok main))
    (source : (DocumentKind.ofPath main).isCompilable = true)
    (rooted : options.root = none ∧ main.parent? = some root ∨
      ∃ named, options.root = some named ∧ answer (.canonical named) = pure (.ok root))
    (inside : main.startsWith root = true) :
    (find options).run.run answer = pure (.ok ⟨root, main⟩) := by
  rw [find, run_canonical reached, source, if_neg (by decide)]
  rcases rooted with ⟨unnamed, above⟩ | ⟨path, named, reached⟩
  · simp [unnamed, above, inside]
  · simp only [named]
    rw [run_canonical reached]
    simp [inside]

end Document

end Application

end LivePreview
