import LivePreview.Proofs.Preview.Images
import LivePreview.Proofs.Preview.Ledger
import LivePreview.Proofs.Session.Frame

/-!
# What a session has its engine do

Each step of an operation comes down to little in the engine: a reply goes on to a cycle or to a
click, the engine is reset, a compile is started, or something is put on record
(`Stage.resume_drives`, `Action.start_drives`).  So tickets are never taken back, and the images
that are held come from pages that were delivered to cycles of the session.
-/

namespace LivePreview

namespace Preview.Engine

/-- Whether two engines differ in nothing but the record. -/
def Alike (e e' : Engine) : Prop :=
  e.takeNotes.2 = e'.takeNotes.2

theorem Alike.refl (e : Engine) : e.Alike e := rfl

theorem Alike.emit (e : Engine) (event : Event) : (e.emit event).Alike e := rfl

theorem Alike.say (e : Engine) (lines : List Console.LogLine) : (e.say lines).Alike e := rfl

theorem Alike.trans {e e' e'' : Engine} (first : e.Alike e') (next : e'.Alike e'') :
    e.Alike e'' :=
  Eq.trans first next

theorem Alike.congr {α : Type} {e e' : Engine} (alike : e.Alike e') (f : Engine → α) :
    f e.takeNotes.2 = f e'.takeNotes.2 :=
  congrArg f alike

theorem Alike.state {e e' : Engine} (alike : e.Alike e') : e.state = e'.state :=
  alike.congr Engine.state

theorem Alike.counters {e e' : Engine} (alike : e.Alike e') : e.counters = e'.counters :=
  alike.congr Engine.counters

theorem Alike.display {e e' : Engine} (alike : e.Alike e') : e.display = e'.display :=
  alike.congr Engine.display

end Preview.Engine

namespace Session

open Preview (Activity Click Counters Cycle Decodes Delivery Demand Engine Holds inPlace)

/-- The operation of the engine that a stage waits for. -/
def Stage.activity? : Stage → Option Activity
  | .cycling cycle _ => some (.cycle cycle)
  | .clicking click => some (.click click)
  | _ => none

/-- The pages that a reply delivers. -/
def Stage.brought : (stage : Stage) → stage.request.Reply → List Delivery
  | .cycling cycle _, reply => Preview.brought cycle.call reply
  | _, _ => []

variable {s t : Session}

theorem startSave_alike (explicit : Bool) (auto : Option AutoSave) :
    (s.startSave explicit auto).1.engine.Alike s.engine := by
  rw [startSave_session]
  split
  · exact .say ..
  · split
    · exact .refl _
    · split
      · exact .emit ..
      · exact .refl _

theorem afterWrite_alike (save : Save) : (s.afterWrite save).engine.Alike s.engine := by
  unfold afterWrite
  split <;> rfl

theorem reveal_alike (path : Path) (position : Nat) :
    (s.reveal path position).engine.Alike s.engine := by
  unfold reveal
  split
  · exact .refl _
  · exact .emit ..

theorem Action.start_drives (s : Session) (action : Action) :
    (action.start s).1.engine.Alike s.engine ∨
      ∃ demand : Demand, (action.start s).1.engine = (demand.start s.engine).1 := by
  have starts := action.starts s
  generalize action.start s = step at starts ⊢
  cases starts with
  | compiles =>
    unfold Session.startCompile
    split
    · exact .inl (.refl _)
    · next source shown => exact .inr ⟨.compile source, rfl⟩
  | renders source => exact .inr ⟨.render source, rfl⟩
  | saves => exact .inl (startSave_alike ..)
  | clicks page x y => exact .inr ⟨.click s.content page x y, rfl⟩
  | notCompilable | nothingToExport => exact .inl (.emit ..)
  | _ => exact .inl (.refl _)

theorem Action.start_before (s : Session) (action : Action) :
    s.engine.counters.Before (action.start s).1.engine.counters := by
  rcases action.start_drives s with alike | ⟨demand, same⟩
  · exact alike.counters ▸ .refl _
  · exact same ▸ demand.start_before s.engine

theorem Action.start_holds {P : PageKey → PageImage → Prop} {s : Session}
    (holds : Holds P s.engine.display) (action : Action) :
    Holds P (action.start s).1.engine.display := by
  rcases action.start_drives s with alike | ⟨demand, same⟩
  · exact alike.display ▸ holds
  · rw [same, demand.start_display]
    exact holds

/-! ## Replies -/

variable [ImageDecoder]

/-- `Drives s stage reply e'`: in the session `s` the reply to a stage leaves the engine at
    `e'`. -/
inductive Drives (s : Session) : (stage : Stage) → stage.request.Reply → Engine → Prop
  | tells {stage : Stage} {reply : stage.request.Reply} {e' : Engine}
      (alike : e'.Alike s.engine) : Drives s stage reply e'
  | resets {stage : Stage} {reply : stage.request.Reply} {e' : Engine}
      (alike : e'.Alike s.engine.reset) : Drives s stage reply e'
  | compiles {stage : Stage} {reply : stage.request.Reply} {e' : Engine}
      (drives : Drives s stage reply e') (source : Snapshot) :
      Drives s stage reply (e'.startCompile source).1
  | cycles (cycle : Cycle) (selected : Bool) (reply : cycle.call.Reply) :
      Drives s (.cycling cycle selected) reply (cycle.resume s.engine reply).1
  | clicks (click : Click) (reply : Except Failure Jump) {e' : Engine}
      (alike : e'.Alike (click.resume s.engine reply).1) : Drives s (.clicking click) reply e'

variable {stage : Stage} {reply : stage.request.Reply}

theorem Drives.startCompile (drives : Drives s stage reply t.engine) (selected : Bool) :
    Drives s stage reply (t.startCompile selected).1.engine := by
  unfold Session.startCompile
  split
  · exact drives
  · exact drives.compiles _

theorem Stage.resume_drives (s : Session) (stage : Stage) (reply : stage.request.Reply) :
    Drives s stage reply (stage.resume s reply).1.engine := by
  have resumes := stage.resumes s reply
  generalize stage.resume s reply = step at resumes ⊢
  cases resumes with
  | refused | created => exact .tells (.emit ..)
  | enters | chooses => exact .resets (.say ..)
  | recompiles path =>
    have chosen : Drives s (.selecting path) (.ok ()) (s.choose path).engine := .resets (.say ..)
    exact chosen.startCompile true
  | loads => exact .tells (.say ..)
  | loadsMain path content =>
    have loaded : Drives s (.loading path .compile) (.ok content) (s.load path content).engine :=
      .tells (.say ..)
    exact loaded.startCompile true
  | loadsTarget => exact .tells ((reveal_alike ..).trans (.say ..))
  | cyclesOn cycle selected reply resumed =>
    have cycles := Drives.cycles (s := s) cycle selected reply
    rwa [resumed] at cycles
  | concludes cycle selected reply resumed =>
    have cycles := Drives.cycles (s := s) cycle selected reply
    rwa [resumed] at cycles
  | unwritten =>
    rw [endSave_session]
    exact .tells (.emit ..)
  | written =>
    rw [endSave_session]
    exact .tells (afterWrite_alike ..)
  | savesNext => exact .tells (startSave_alike ..)
  | stops | persisted => exact .tells (.refl _)
  | exported => exact .tells rfl
  | reveals click reply leads =>
    refine .clicks click reply ?_
    rw [leads]
    exact reveal_alike ..
  | reads click reply leads | clicked click reply leads =>
    refine .clicks click reply ?_
    rw [leads]
    exact .refl _

/-! ## Tickets -/

theorem Drives.before {e' : Engine} (drives : Drives s stage reply e') :
    s.engine.counters.Before e'.counters := by
  induction drives with
  | tells alike => exact alike.counters ▸ .refl _
  | resets alike => exact alike.counters ▸ s.engine.reset_before
  | compiles drives source inductionHypothesis =>
    exact inductionHypothesis.trans ((Demand.compile source).start_before _)
  | cycles cycle selected reply =>
    exact (Activity.resume_advances (.cycle cycle) s.engine reply).before
  | clicks click reply alike =>
    rw [alike.counters, click.resume_counters]
    exact .refl _

/-! ## Images -/

theorem Drives.holds {P : PageKey → PageImage → Prop} {e' : Engine}
    (drives : Drives s stage reply e') (holds : Holds P s.engine.display)
    (decodes : ∀ page ∈ inPlace (stage.brought reply), Decodes P page) :
    Holds P e'.display := by
  induction drives with
  | tells alike => exact alike.display ▸ holds
  | resets alike => exact alike.display ▸ s.engine.reset_holds
  | compiles drives source inductionHypothesis =>
    rw [Engine.startCompile_display]
    exact inductionHypothesis decodes
  | cycles cycle selected reply => exact Activity.resume_holds (a := .cycle cycle) holds decodes
  | clicks click reply alike =>
    rw [alike.display, click.resume_display]
    exact holds

/-- A reply that comes too late to a cycle delivers nothing. -/
theorem Drives.stale_holds {P : PageKey → PageImage → Prop} {e' : Engine} {a : Activity}
    (drives : Drives s stage reply e') (own : stage.activity? = some a)
    (stale : ¬ a.IsCurrent s.engine.counters) (holds : Holds P s.engine.display) :
    Holds P e'.display := by
  induction drives with
  | tells alike => exact alike.display ▸ holds
  | resets alike => exact alike.display ▸ s.engine.reset_holds
  | compiles drives source inductionHypothesis =>
    rw [Engine.startCompile_display]
    exact inductionHypothesis own
  | cycles cycle selected reply =>
    obtain rfl := Option.some.inj own
    obtain ⟨lines, dropped⟩ := Activity.resume_stale stale reply
    have same : (cycle.resume s.engine reply).1 = s.engine.say lines := congrArg Prod.fst dropped
    rw [same, Engine.say_display]
    exact holds
  | clicks click reply alike =>
    rw [alike.display, click.resume_display]
    exact holds

end Session

end LivePreview
