import LivePreview.Proofs.Preview.Keys
import LivePreview.Proofs.Toy.Service

/-!
# Scripts

A run can be computed from a script, which says what is asked of the engine, and which operation
gets its answer next (`perform_run`).
-/

namespace LivePreview.Toy

open Preview (Coupling Demand BusyEngine)

/-- What happens next. -/
inductive Cue where
  | asks (demand : Demand)
  /-- The operation in a place of the waiting ones gets its answer. -/
  | answers (place : Nat)

/-- An engine that shows the pages of a text. -/
def showing (text : String) : Preview.Engine :=
  let start : Preview.Engine := .start 4
  { start with state := { start.state with
      pages := (splitPages text).zipIdx.map fun (page, i) => ⟨.of (pagePng page) i, draw page⟩ } }

theorem showing_keys (text : String) : (showing text).keys = keysOf (splitPages text) := by
  simp [Preview.Engine.keys, showing, keysOf, Function.comp_def]

/-- A backend that has written and compiled a text. -/
def holding (text : String) : Backend :=
  { Backend.start with persisted := text, compiled := some text }

variable [ImageDecoder]

/-- The moves that a script leads to, and the last state. -/
def perform (s : Coupling service) :
    List Cue → List (Move (Coupling service) (Option BusyEngine.Act)) × Coupling service
  | [] => ([], s)
  | .asks demand :: cues =>
    let (e, activity) := demand.start s.engine
    let (errand, b) := service.issue s.service activity
    let t : Coupling service := ⟨e, b, s.errands ++ [errand]⟩
    let (moves, last) := perform t cues
    (⟨s, some (.starts demand activity), t⟩ :: moves, last)
  | .answers place :: cues =>
    match s.errands[place]? with
    | none => perform s cues
    | some errand =>
      let (e, progress) := errand.activity.resume s.engine errand.ongoing
      let (next, b) := service.dispatch s.service progress
      let t : Coupling service :=
        ⟨e, b, s.errands.take place ++ next ++ s.errands.drop (place + 1)⟩
      let (moves, last) := perform t cues
      (⟨s, some (.resumes errand.activity errand.ongoing progress), t⟩ :: moves, last)

theorem perform_run (s : Coupling service) (cues : List Cue) :
    Run Coupling.Step s (perform s cues).1 (perform s cues).2 := by
  induction cues generalizing s with
  | nil => exact .nil
  | cons cue cues inductionHypothesis =>
    cases cue with
    | asks demand => exact (Run.one (.starts s demand)).append (inductionHypothesis _)
    | answers place =>
      unfold perform
      split
      · exact inductionHypothesis s
      · next errand found =>
        obtain ⟨within, rfl⟩ := List.getElem?_eq_some_iff.mp found
        have waits : s.errands = s.errands.take place ++
            s.errands[place] :: s.errands.drop (place + 1) := by
          rw [← List.drop_eq_getElem_cons, List.take_append_drop]
        exact (Run.one (.resumes _ waits ⟨rfl, .inl rfl⟩)).append (inductionHypothesis _)

/-- A script is performed on a preview that is in sync with a text. -/
@[irreducible] def performOn (text : String) (cues : List Cue) :
    List (Move (Coupling service) (Option BusyEngine.Act)) × Coupling service :=
  perform (.idle (showing text) (holding text)) cues

theorem performOn_run (text : String) (cues : List Cue) :
    Run Coupling.Step (.idle (showing text) (holding text)) (performOn text cues).1
      (performOn text cues).2 := by
  rw [performOn]
  exact perform_run _ cues

/-- Whether an answer came in time. -/
def inTime : Option BusyEngine.Act → Bool
  | some (.resumes _ (.error (.timeout _ _)) _) => false
  | _ => true

/-- Whether nothing is arranged to fail, the cursor has its place, and the answer came in time. -/
def Orderly (move : Move (Coupling service) (Option BusyEngine.Act)) : Prop :=
  move.before.service.corrupt = [] ∧ move.before.service.failing = [] ∧
    move.before.service.mapsCursor = true ∧ inTime move.act = true

instance : DecidablePred Orderly := fun _ => inferInstanceAs (Decidable (_ ∧ _))

end LivePreview.Toy
