import LivePreview.Proofs.Files.Basic
import LivePreview.Proofs.Preview.Coupling

/-!
# A backend that writes through

A backend writes a source through at some moment between the call and its answer, and a compile
reads the main document at some moment between its call and its answer.  What it answers is left
open otherwise.
-/

namespace LivePreview

/-- The file that a call reads, if it is the main document. -/
def Call.source? (main : Path) : Call → Option Path
  | .compile => some main
  | _ => none

namespace BusyFiles

open Preview (Activity Coupling Counters Cycle Service BusyEngine)

variable {main : Path}

/-- Whether a call did what it is made for. -/
def Did (call : Call) (standing : Standing) : Prop :=
  (call.write?.isSome → standing = .landed) ∧ (call = .compile → ∃ text, standing = .read text)

/-- What a call answers when it did what it is made for is left open.  It may fail before that,
    and it may be over while its write is still on its way. -/
inductive Answers {call : Call} (files : BusyFiles) : Standing → call.Reply → BusyFiles → Prop
  | done {standing : Standing} (did : Did call standing) (reply : call.Reply) :
      Answers files standing reply files
  | fails (standing : Standing) {f : Failure} (other : ∀ diagnostics, f ≠ .compile diagnostics) :
      Answers files standing (.error f) files
  | leaves {w : Write} (writes : call.write? = some w) (f : Failure) :
      Answers files .begun (.error f) { files with late := w :: files.late }

def service (main : Path) : Service where
  State := BusyFiles
  Ongoing _ := Standing
  accept files _ := (.begun, files)
  Proceeds {call} := Proceeds call.write? (call.source? main)
  Drifts files files' := ∃ w, Drifts files w files'
  Answers {call} := @Answers call

/-- A write that has not landed, whether or not its call is over. -/
def Out (s : Coupling (service main)) (w : Write) : Prop :=
  w ∈ BusyFiles.late s.service ∨
    ∃ errand ∈ s.errands, errand.ongoing = Standing.begun ∧ errand.activity.call.write? = some w

/-! ## What a step does to writes and texts -/

theorem write?_of_succeeds {e : Preview.Engine} {c next : Cycle} {reply : c.call.Reply}
    {k : Counters} (succeeds : c.Succeeds e reply next k) : next.call.write? = none := by
  cases succeeds <;> rfl

section Calls

variable {call : Call} {files files' : BusyFiles} {standing standing' : Standing} {w : Write}

theorem Answers.texts {reply : call.Reply} (answers : Answers files standing reply files') :
    files'.texts = files.texts := by
  cases answers <;> rfl

theorem Answers.late {reply : call.Reply} (answers : Answers files standing reply files')
    (mem : w ∈ files'.late) :
    w ∈ files.late ∨ standing = .begun ∧ call.write? = some w := by
  cases answers with
  | done => exact .inl mem
  | fails => exact .inl mem
  | leaves writes =>
    rcases List.mem_cons.mp mem with rfl | old
    · exact .inr ⟨rfl, writes⟩
    · exact .inl old

end Calls

variable [ImageDecoder]

/-- A call that an operation goes on with writes nothing. -/
theorem write?_of_next {a b : Activity} {e : Preview.Engine} {reply : a.call.Reply}
    (goesOn : b ∈ (a.resume e reply).2.next) : b.call.write? = none := by
  have advances := a.resume_advances e reply
  revert goesOn advances
  generalize a.resume e reply = resumed
  rintro goesOn (_ | ⟨_, succeeds⟩)
  · cases goesOn
  · obtain rfl := List.mem_singleton.mp goesOn
    exact write?_of_succeeds succeeds

/-! ### Steps of one call -/

section Steps

variable {s : Coupling (service main)} {before after : List (Preview.Errand (service main))}
  {a : Activity}

theorem lands (before : List (Preview.Errand (service main)))
    (waits : s.errands = before ++ ⟨a, Standing.begun⟩ :: after) {w : Write}
    (writes : a.call.write? = some w) :
    Coupling.Step s none
      ⟨s.engine, BusyFiles.mk ((BusyFiles.texts s.service).store w) s.service.late,
        before ++ ⟨a, Standing.landed⟩ :: after⟩ :=
  .proceeds before waits (Proceeds.lands writes)

theorem reads (before : List (Preview.Errand (service main)))
    (waits : s.errands = before ++ ⟨a, Standing.begun⟩ :: after)
    (asks : a.call.source? main = some main) (text : String)
    (found : (BusyFiles.texts s.service).read main = some text) :
    Coupling.Step s none ⟨s.engine, s.service, before ++ ⟨a, Standing.read text⟩ :: after⟩ :=
  .proceeds before waits (Proceeds.reads asks found)

theorem answers (before : List (Preview.Errand (service main))) (standing : Standing)
    (waits : s.errands = before ++ ⟨a, standing⟩ :: after) (did : Did a.call standing)
    (reply : a.call.Reply) :
    Coupling.Step s (some (.resumes a reply (a.resume s.engine reply).2))
      ⟨(a.resume s.engine reply).1,
        ((service main).dispatch s.service (a.resume s.engine reply).2).2,
        before ++ ((service main).dispatch s.service (a.resume s.engine reply).2).1 ++ after⟩ :=
  .resumes before waits (Answers.done did reply)

end Steps

variable {s t : Coupling (service main)} {act : Option BusyEngine.Act} {w : Write}

/-- Only a compile that starts sends a write on its way. -/
theorem out_of_step (step : Coupling.Step s act t) (out : Out t w) :
    Out s w ∨ ∃ source ticket,
      act = some (.starts (.compile source) (.cycle (.persisting source ticket))) ∧
        w = ⟨source.path, source.content⟩ := by
  cases step with
  | starts demand =>
    rcases out with late | ⟨errand, mem, begun, writes⟩
    · exact .inl (.inl late)
    · rcases List.mem_append.mp mem with old | new
      · exact .inl (.inr ⟨errand, old, begun, writes⟩)
      · obtain rfl := List.mem_singleton.mp new
        cases demand with
        | compile source => exact .inr ⟨source, _, rfl, (Option.some.inj writes).symm⟩
        | render source => cases writes
        | click text page x y => cases writes
  | resets => exact .inl out
  | @resumes before after errand waits reply files answers =>
    rcases out with late | ⟨other, mem, begun, writes⟩
    · have late : w ∈ BusyFiles.late files := by
        revert late
        cases (errand.activity.resume s.engine reply).2 <;> exact id
      rcases Answers.late answers late with old | ⟨begun, writes⟩
      · exact .inl (.inl old)
      · exact .inl (.inr ⟨errand, waits ▸ List.mem_append_cons_self, begun, writes⟩)
    · rcases beside_or_next mem with old | new
      · exact .inl (.inr ⟨other, mem_of_beside waits old, begun, writes⟩)
      · have next : other.activity ∈ (errand.activity.resume s.engine reply).2.next := by
          rw [← Service.dispatch_activities (v := service main) files]
          exact List.mem_map_of_mem new
        rw [write?_of_next next] at writes
        cases writes
  | @proceeds before after errand waits standing files proceeds =>
    rcases out with late | ⟨other, mem, begun, writes⟩
    · exact .inl (.inl (Proceeds.late proceeds ▸ late))
    · rcases eq_or_beside rfl mem with rfl | old
      · exact absurd begun (Proceeds.not_begun proceeds)
      · exact .inl (.inr ⟨other, mem_of_beside waits old, begun, writes⟩)
  | drifts drifts =>
    rcases out with late | held
    · obtain ⟨_, drifts⟩ := drifts
      exact .inl (.inl (drifts.late late))
    · exact .inl (.inr held)

/-- A file only changes when a write lands that was on its way. -/
theorem read_of_step (step : Coupling.Step s act t) (path : Path) :
    (∃ w, Out s w ∧ w.path.same path ∧ (BusyFiles.texts t.service).read path = some w.text) ∨
      (BusyFiles.texts t.service).read path = (BusyFiles.texts s.service).read path := by
  cases step with
  | starts demand => exact .inr rfl
  | resets => exact .inr rfl
  | @resumes before after errand waits reply files answers =>
    refine .inr (congrArg (Texts.read · path) (Eq.trans ?_ (Answers.texts answers)))
    cases (errand.activity.resume s.engine reply).2 <;> rfl
  | @proceeds before after errand waits standing files proceeds =>
    have waiting : errand ∈ s.errands := waits ▸ List.mem_append_cons_self
    rcases Proceeds.texts proceeds with ⟨w, writes, -, stored⟩ | same
    · show (∃ w, Out s w ∧ w.path.same path ∧ files.texts.read path = some w.text) ∨
        files.texts.read path = _
      rw [stored]
      refine (Texts.read_store _ w path).imp_left fun ⟨here, found⟩ => ⟨w, ?_, here, found⟩
      exact .inr ⟨errand, waiting, Proceeds.begun proceeds, writes⟩
    · exact .inr (congrArg (Texts.read · path) same)
  | drifts drifts =>
    obtain ⟨w, drifts⟩ := drifts
    show (∃ w, Out s w ∧ w.path.same path ∧ (BusyFiles.texts _).read path = some w.text) ∨
      (BusyFiles.texts _).read path = _
    rw [Drifts.texts drifts]
    exact (Texts.read_store _ w path).imp_left fun ⟨here, found⟩ =>
      ⟨w, .inl (Drifts.mem drifts), here, found⟩

end BusyFiles

end LivePreview
