import LivePreview.Compiler.Stage
import LivePreview.Host.Program

/-!
# Whole calls

`Compiler.answer` carries a call to the compiler out from its first step to its
last, with nothing in between.  It ends because every step lowers the rank of the
stage (`resume_rank`).
-/

namespace LivePreview.Compiler

open Preview (Progress)

theorem readNext_rank {c c' : Compiler} {read : List Page} {rest : List Path}
    {next : Stage .renderAllPages} (h : c.readNext read rest = (c', .waits next)) :
    next.rank = rest.length := by
  cases rest with
  | nil => simp [readNext] at h
  | cons file rest =>
    simp only [readNext] at h
    cases h
    rfl

theorem leaveRoot_rank {c c' : Compiler} {path : Path} {stale : List Path}
    {next : Stage .openWorkspace} (h : c.leaveRoot path stale = (c', .waits next)) :
    next.rank = stale.length := by
  cases stale with
  | nil => simp [leaveRoot] at h
  | cons dir rest =>
    simp only [leaveRoot] at h
    cases h
    rfl

theorem leaveMain_rank {c c' : Compiler} {path : Path} {stale : List Path}
    {next : Stage .setMainDocument} (h : c.leaveMain path stale = (c', .waits next)) :
    next.rank = stale.length := by
  cases stale with
  | nil => simp [leaveMain] at h
  | cons dir rest =>
    simp only [leaveMain] at h
    cases h
    rfl

theorem forget_length (c : Compiler) : c.forget.1.length ≤ 2 := by
  simp only [forget, List.length_append]
  cases c.published <;> cases c.retired <;> simp

theorem afterCollect_rank {c c' : Compiler} {draft : Draft} {diagnostics : List Diagnostic}
    {reply : Except SystemError (List String)} {next : Stage .compile}
    (h : c.afterCollect draft diagnostics reply = (c', .waits next)) : next.rank = 1 := by
  unfold afterCollect at h
  split at h
  · cases h
    rfl
  · dsimp only at h
    split at h
    · simp at h
    · cases h
      rfl

theorem resume_rank {operation : Operation} {c c' : Compiler} {stage next : Stage operation}
    {reply : (stage.request c).Reply} (h : c.resume stage reply = (c', .waits next)) :
    next.rank < stage.rank := by
  cases stage with
  | persisting path text => simp [resume] at h
  | preparing draft =>
    simp only [resume, afterPrepare] at h
    split at h
    · simp at h
    · cases h
      simp [Stage.rank]
  | compiling draft =>
    simp only [resume, afterCompile] at h
    split at h <;>
    · cases h
      simp [Stage.rank]
  | collecting draft diagnostics =>
    simp only [resume] at h
    rw [afterCollect_rank h]
    simp [Stage.rank]
  | discarding dir lines result => simp [resume] at h
  | readingAll read file rest =>
    simp only [resume, afterReadNext] at h
    split at h
    · simp at h
    · rw [readNext_rank h]
      simp [Stage.rank]
  | reading index file =>
    simp only [resume, afterRead] at h
    split at h <;> simp at h
  | openingRoot path =>
    simp only [resume, afterOpenRoot] at h
    split at h
    · simp at h
    · simp at h
    · rw [leaveRoot_rank h]
      exact Nat.lt_succ_of_le c.forget_length
  | leavingRoot path dir rest =>
    simp only [resume] at h
    rw [leaveRoot_rank h]
    simp [Stage.rank]
  | openingMain path =>
    simp only [resume, afterOpenMain] at h
    split at h
    · simp at h
    · rw [leaveMain_rank h]
      exact Nat.lt_succ_of_le c.forget_length
  | leavingMain path dir rest =>
    simp only [resume] at h
    rw [leaveMain_rank h]
    simp [Stage.rank]
  | makingRoom path text dir =>
    simp only [resume, afterMakeRoom] at h
    split at h
    · simp at h
    · cases h
      simp [Stage.rank]
  | creating path text => simp [resume] at h
  | clearingWay target format output dir =>
    simp only [resume, afterClearWay] at h
    split at h
    · simp at h
    · cases h
      simp [Stage.rank]
  | exporting target format output =>
    simp only [resume, afterExport] at h
    split at h <;> simp at h

open Host (Program)

def finish {operation : Operation} (c : Compiler) (stage : Stage operation) :
    Program (Except Failure operation.Answer × Compiler) :=
  .ask (stage.request c) fun reply =>
    match h : c.resume stage reply with
    | (c, .ended result) => pure (result, c)
    | (c, .waits next) =>
      have := resume_rank h
      finish c next
termination_by stage.rank

def conclude {operation : Operation} :
    Step operation → Program (Except Failure operation.Answer × Compiler)
  | (c, .ended result) => pure (result, c)
  | (c, .waits stage) => c.finish stage

def answer (c : Compiler) (call : Call) : Program (call.Reply × Compiler) :=
  conclude (c.call call)

end LivePreview.Compiler
