import LivePreview.Proofs.Preview.Frame
import LivePreview.Proofs.Run

/-!
# Operations under way

`BusyEngine` is an engine with the operations that wait for replies.  In one step an
operation is started, the engine is reset, or one of the waiting operations gets the
reply to its call and goes on to its next call or to its end; in which order is left
open, and so is the reply.  What holds after every run of these steps holds for every
interleaving and for every behaviour of the backend.
-/

namespace LivePreview.Preview

namespace Progress

/-- The stage that is waited in, if the operation has not ended. -/
def next {σ ρ : Type} : Progress σ ρ → List σ
  | .waits stage => [stage]
  | .ended _ => []

@[simp] theorem next_waits {σ ρ : Type} (stage : σ) :
    (Progress.waits stage : Progress σ ρ).next = [stage] := rfl

@[simp] theorem next_ended {σ ρ : Type} (result : ρ) :
    (Progress.ended result : Progress σ ρ).next = [] := rfl

def map {σ σ' ρ ρ' : Type} (f : σ → σ') (g : ρ → ρ') : Progress σ ρ → Progress σ' ρ'
  | .waits stage => .waits (f stage)
  | .ended result => .ended (g result)

end Progress

/-- An operation that waits for a reply. -/
inductive Activity where
  | cycle (cycle : Cycle)
  | click (click : Click)
  deriving DecidableEq

inductive Ending where
  | cycle (outcome : Outcome)
  | click (jump : Option Jump)
  deriving DecidableEq

/-- What was rendered by an operation that has ended. -/
def Progress.report? : Progress Activity Ending → Option RenderReport
  | .ended (.cycle (.rendered report)) => some report
  | _ => none

theorem Progress.ended_of_report? {progress : Progress Activity Ending} {report : RenderReport}
    (reports : progress.report? = some report) :
    progress = .ended (.cycle (.rendered report)) := by
  unfold Progress.report? at reports
  split at reports
  · rw [Option.some.inj reports]
  · cases reports

namespace Activity

@[reducible] def call : Activity → Call
  | .cycle c => c.call
  | .click c => c.call

variable [ImageDecoder]

def resume (e : Engine) : (a : Activity) → a.call.Reply → Engine × Progress Activity Ending
  | .cycle c, reply => ((c.resume e reply).1, (c.resume e reply).2.map .cycle .cycle)
  | .click c, reply => ((c.resume e reply).1, .ended (.click (c.resume e reply).2))

/-- How an operation ends whose reply is not wanted any more. -/
def dropped : Activity → Ending
  | .cycle _ => .cycle .superseded
  | .click _ => .click none

end Activity

/-! ## Sources and tickets -/

def Cycle.source : Cycle → Snapshot
  | .persisting source _ => source
  | .compiling source _ => source
  | .locating r => r.source
  | .counting r _ => r.source
  | .fetchingAll r _ => r.source
  | .fetchingPage r _ _ => r.source

def Cycle.render? : Cycle → Option Render
  | .persisting _ _ => none
  | .compiling _ _ => none
  | .locating r => some r
  | .counting r _ => some r
  | .fetchingAll r _ => some r
  | .fetchingPage r _ _ => some r

/-- The ticket of a compile that is not answered yet. -/
def Cycle.pendingTicket? : Cycle → Option Ticket
  | .persisting _ ticket => some ticket
  | .compiling _ ticket => some ticket
  | _ => none

namespace Activity

def render? : Activity → Option Render
  | .cycle c => c.render?
  | .click _ => none

/-- The ticket of a compile that is not answered yet. -/
def pendingTicket? : Activity → Option Ticket
  | .cycle c => c.pendingTicket?
  | .click _ => none

/-- The ticket of the compile cycle an operation is. -/
def compileTicket? (a : Activity) : Option Ticket :=
  a.pendingTicket?.or (a.render?.bind Render.compile)

def renderTicket? (a : Activity) : Option Ticket :=
  a.render?.map Render.ticket

def clickTicket? : Activity → Option Ticket
  | .cycle _ => none
  | .click c => some c.ticket

/-- Whether every ticket an operation holds is the latest of its sequence. -/
def IsCurrent (a : Activity) (k : Counters) : Prop :=
  (∀ ticket ∈ a.compileTicket?, k.compiles.isCurrent ticket) ∧
    (∀ ticket ∈ a.renderTicket?, k.renders.isCurrent ticket) ∧
      ∀ ticket ∈ a.clickTicket?, k.clicks.isCurrent ticket

/-- Whether every ticket an operation holds was given out. -/
def IsIssued (a : Activity) (k : Counters) : Prop :=
  (∀ ticket ∈ a.compileTicket?, ticket.number ≤ k.compiles.latest) ∧
    (∀ ticket ∈ a.renderTicket?, ticket.number ≤ k.renders.latest) ∧
      ∀ ticket ∈ a.clickTicket?, ticket.number ≤ k.clicks.latest

end Activity

/-! ## Steps -/

/-- What can be asked of the engine. -/
inductive Demand where
  | compile (source : Snapshot)
  | render (source : Snapshot)
  | click (text : String) (page : Nat) (x y : Float)
  deriving DecidableEq

def Demand.start (e : Engine) : Demand → Engine × Activity
  | .compile source => ((e.startCompile source).1, .cycle (e.startCompile source).2)
  | .render source => ((e.startRender source none).1, .cycle (e.startRender source none).2)
  | .click text page x y =>
    ((e.startClick text page x y).1, .click (e.startClick text page x y).2)

/-- An engine with the operations that wait, in no particular order. -/
structure BusyEngine where
  engine : Engine
  waiting : List Activity

namespace BusyEngine

def idle (engine : Engine) : BusyEngine :=
  ⟨engine, []⟩

inductive Act where
  | starts (demand : Demand) (activity : Activity)
  | resets
  | resumes (activity : Activity) (reply : activity.call.Reply)
      (progress : Progress Activity Ending)

variable [ImageDecoder]

/-- One step of the engine or of an operation. -/
inductive Step : BusyEngine → Act → BusyEngine → Prop
  | starts (s : BusyEngine) (demand : Demand) :
      Step s (.starts demand (demand.start s.engine).2)
        ⟨(demand.start s.engine).1, s.waiting ++ [(demand.start s.engine).2]⟩
  | resets (s : BusyEngine) : Step s .resets { s with engine := s.engine.reset }
  | resumes {s : BusyEngine} (before : List Activity) {after : List Activity} {a : Activity}
      (waits : s.waiting = before ++ a :: after) (reply : a.call.Reply) :
      Step s (.resumes a reply (a.resume s.engine reply).2)
        ⟨(a.resume s.engine reply).1, before ++ (a.resume s.engine reply).2.next ++ after⟩

end BusyEngine

end LivePreview.Preview
