import LivePreview.Session.Operation

/-!
# Operations end

Every step of a cycle, and every step of an operation of a session but a pause
between automatic saves, leaves fewer steps to go: `Cycle.rank` and `Stage.rank`
bound their number.
-/

namespace LivePreview

namespace Preview

/-- A bound on the number of steps a cycle has left. -/
def Cycle.rank : Cycle → Nat
  | .persisting _ _ => 5
  | .compiling _ _ => 4
  | .locating _ => 3
  | .counting _ _ => 2
  | .fetchingAll _ _ => 1
  | .fetchingPage _ _ _ => 1

theorem Engine.fail_ends (e : Engine) (f : Failure) :
    ∃ e' result, e.fail f = (e', .ended result) :=
  ⟨_, _, rfl⟩

theorem Engine.endRender_ends (e : Engine) (cursor : Option Position) (plan : Plan)
    (splice : SpliceResult) :
    ∃ e' result, e.endRender cursor plan splice = (e', .ended result) := by
  unfold Engine.endRender
  split
  · exact Engine.fail_ends _ _
  · exact ⟨_, _, rfl⟩

theorem Cycle.resume_rank [ImageDecoder] {e e' : Engine} {c next : Cycle} {reply : c.call.Reply}
    (h : c.resume e reply = (e', .waits next)) : next.rank < c.rank := by
  unfold Cycle.resume at h
  split at h
  · simp at h
  · cases c with
    | persisting source ticket =>
      simp only [Engine.afterPersist] at h
      split at h
      · simp [Engine.fail] at h
      · cases h
        simp [Cycle.rank]
    | compiling source ticket =>
      simp only [Engine.afterCompile] at h
      split at h
      · simp only [Engine.startRender] at h
        cases h
        simp [Cycle.rank]
      · simp [Engine.fail] at h
      · simp [Engine.fail] at h
    | locating r =>
      simp only [Engine.afterLocate] at h
      split at h <;>
      · cases h
        simp [Cycle.rank]
    | counting r cursor =>
      simp only [Engine.afterCount] at h
      split at h
      · simp [Engine.fail] at h
      · split at h <;>
        · cases h
          simp [Cycle.rank]
    | fetchingAll r cursor =>
      simp only [Engine.afterFetchAll] at h
      split at h
      · simp [Engine.fail] at h
      · obtain ⟨_, _, ends⟩ := Engine.endRender_ends e cursor .full (spliceAll e.state ‹_›)
        simp [ends] at h
    | fetchingPage r cursor index =>
      simp only [Engine.afterFetchPage] at h
      split at h
      · simp [Engine.fail] at h
      · split at h
        · simp [Engine.fail] at h
        · obtain ⟨_, _, ends⟩ :=
            Engine.endRender_ends e cursor (.single index) (spliceOne e.state ‹_›)
          simp [ends] at h

end Preview

namespace Session

open Preview (Cycle Progress)

/-- A bound on the number of steps an operation has left before it ends or pauses. -/
def Stage.rank : Stage → Nat
  | .openingWorkspace _ => 1
  | .selecting _ => 7
  | .loading _ .compile => 6
  | .loading _ _ => 1
  | .creating _ _ => 2
  | .cycling cycle _ => cycle.rank
  | .saving _ _ => 1
  | .resting _ => 0
  | .persisting _ _ _ _ => 2
  | .exporting _ _ _ => 1
  | .clicking _ => 2

theorem startCompile_rank {s s' : Session} {selected : Bool} {next : Stage}
    (h : s.startCompile selected = (s', .waits next)) : next.rank = 5 := by
  unfold Session.startCompile at h
  split at h
  · simp at h
  · simp only [Preview.Engine.startCompile] at h
    cases h
    rfl

theorem endSave_rank {s s' : Session} {auto : Option AutoSave} {outcome : SaveOutcome}
    {next : Stage} (h : s.endSave auto outcome = (s', .waits next)) : next.rank = 0 := by
  cases auto with
  | none => simp [Session.endSave] at h
  | some auto =>
    simp only [Session.endSave, Session.rest] at h
    cases h
    rfl

def Stage.isResting : Stage → Bool
  | .resting _ => true
  | _ => false

/-- Every step but the one after a pause lowers the rank. -/
theorem Stage.resume_rank [ImageDecoder] {s s' : Session} {stage next : Stage}
    {reply : stage.request.Reply} (awake : stage.isResting = false)
    (h : stage.resume s reply = (s', .waits next)) : next.rank < stage.rank := by
  cases stage with
  | openingWorkspace path =>
    simp only [Stage.resume, Session.afterOpenWorkspace] at h
    split at h <;> simp at h
  | selecting path =>
    simp only [Stage.resume, Session.afterSelect] at h
    split at h
    · simp at h
    · split at h
      · cases h
        simp [Stage.rank]
      · rw [startCompile_rank h]
        simp [Stage.rank]
  | loading path after =>
    simp only [Stage.resume, Session.afterLoad] at h
    split at h
    · simp at h
    · cases after with
      | finish => simp at h
      | compile =>
        rw [startCompile_rank h]
        simp [Stage.rank]
      | reveal position => simp at h
  | creating path text =>
    simp only [Stage.resume, Session.afterCreate] at h
    split at h
    · simp at h
    · cases h
      simp [Stage.rank]
  | cycling cycle selected =>
    simp only [Stage.resume, Session.afterCycle] at h
    split at h
    · rename_i resumed
      cases h
      exact Cycle.resume_rank resumed
    · simp at h
  | saving save auto =>
    simp only [Stage.resume, Session.afterSave] at h
    split at h <;>
    · rw [endSave_rank h]
      simp [Stage.rank]
  | resting auto => simp [Stage.isResting] at awake
  | persisting source main format output =>
    simp only [Stage.resume, Session.afterPersist] at h
    split at h
    · simp at h
    · cases h
      simp [Stage.rank]
  | exporting main format output =>
    simp only [Stage.resume, Session.afterExport] at h
    split at h <;> simp at h
  | clicking click =>
    simp only [Stage.resume, Session.afterClick] at h
    split at h
    · split at h
      · simp at h
      · cases h
        simp [Stage.rank]
    · simp at h

end Session

end LivePreview
