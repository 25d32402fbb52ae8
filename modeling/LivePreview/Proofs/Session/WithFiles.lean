import LivePreview.Proofs.Run
import LivePreview.Proofs.Session.Editing

/-!
# A session with its files

In a `SessionWithFiles` operations of a session wait for their requests while the user goes on
editing.  A request to a file takes effect at some moment between its begin and its end; which
request is next, and what the backend answers otherwise, is left open.  Nobody else touches the
files.
-/

namespace LivePreview

open LivePreview.BusyFiles (Standing)

/-- An operation that waits, with what has come of its request. -/
structure Job where
  stage : Session.Stage
  standing : Standing
  deriving DecidableEq

structure SessionWithFiles where
  session : Session
  files : BusyFiles
  jobs : List Job

namespace SessionWithFiles

open Preview (Progress)
open Session (Action Request Result Stage)

def begun (progress : Progress Stage Result) : List Job :=
  progress.next.map (⟨·, .begun⟩)

/-- What a request answers: a text that was read, the end of a write that has landed, or a
    failure.  A call to the backend may be over while its write is still on its way; what it
    answers otherwise is left open. -/
inductive Answers (files : BusyFiles) :
    (request : Request) → Standing → request.Reply → BusyFiles → Prop
  | read (path : Path) (text : String) : Answers files (.read path) (.read text) (.ok text) files
  | unread (path : Path) (standing : Standing) (e : SystemError) :
      Answers files (.read path) standing (.error e) files
  | written (path : Path) (text : String) :
      Answers files (.write path text) .landed (.ok ()) files
  | unwritten (path : Path) (text : String) (standing : Standing) (e : SystemError) :
      Answers files (.write path text) standing (.error e) files
  | rested (duration : Nat) (standing : Standing) :
      Answers files (.pause duration) standing () files
  | called {call : Call} {standing : Standing} (did : call.write?.isSome → standing = .landed)
      (reply : call.Reply) : Answers files (.call call) standing reply files
  | failed (call : Call) (standing : Standing) (f : Failure) :
      Answers files (.call call) standing (.error f) files
  | left {call : Call} {w : Write} (writes : call.write? = some w) (f : Failure) :
      Answers files (.call call) .begun (.error f) { files with late := w :: files.late }

inductive Act where
  | starts (action : Action)
  /-- The user edits the text. -/
  | edits (content : String) (cursor : Nat)
  | moves (offset : Nat)
  /-- A request takes effect. -/
  | proceeds (job : Job)
  /-- A write lands whose call is over. -/
  | drifts (w : Write)
  /-- An export writes what was drawn. -/
  | draws (w : Write)
  | resumes (stage : Stage) (reply : stage.request.Reply)

theorem Answers.texts {files files' : BusyFiles} {request : Request} {standing : Standing}
    {reply : request.Reply} (answers : Answers files request standing reply files') :
    files'.texts = files.texts := by
  cases answers <;> rfl

theorem Answers.late {files files' : BusyFiles} {request : Request} {standing : Standing}
    {reply : request.Reply} (answers : Answers files request standing reply files') {w : Write}
    (mem : w ∈ files'.late) :
    w ∈ files.late ∨ standing = .begun ∧ request.write? = some w := by
  cases answers with
  | left writes =>
    rcases List.mem_cons.mp mem with rfl | old
    · exact .inr ⟨rfl, writes⟩
    · exact .inl old
  | _ => exact .inl mem

/-- The answer to a read tells the text that was read. -/
theorem Answers.of_read {files files' : BusyFiles} {path : Path} {standing : Standing}
    {text : String} (answers : Answers files (.read path) standing (.ok text) files') :
    standing = .read text := by
  cases answers
  rfl

variable [ImageDecoder]

inductive Step : SessionWithFiles → Act → SessionWithFiles → Prop
  | starts (s : SessionWithFiles) (action : Action) :
      Step s (.starts action)
        ⟨(action.start s.session).1, s.files, s.jobs ++ begun (action.start s.session).2⟩
  | edits (s : SessionWithFiles) (content : String) (cursor : Nat) :
      Step s (.edits content cursor) { s with session := (s.session.edit content cursor).1 }
  | moves (s : SessionWithFiles) (offset : Nat) :
      Step s (.moves offset) { s with session := (s.session.moveCursor offset).1 }
  | proceeds {s : SessionWithFiles} (before : List Job) {after : List Job} (job : Job)
      (waits : s.jobs = before ++ job :: after) {standing : Standing} {files : BusyFiles}
      (proceeds : BusyFiles.Proceeds job.stage.request.write? job.stage.request.source? s.files
        job.standing standing files) :
      Step s (.proceeds ⟨job.stage, standing⟩)
        ⟨s.session, files, before ++ ⟨job.stage, standing⟩ :: after⟩
  | drifts {s : SessionWithFiles} {w : Write} {files : BusyFiles}
      (drifts : BusyFiles.Drifts s.files w files) :
      Step s (.drifts w) { s with files }
  | draws {s : SessionWithFiles} {job : Job} {main output : Path} {format : ExportFormat}
      (mem : job ∈ s.jobs) (draws : job.stage = .exporting main format output) (text : String) :
      Step s (.draws ⟨format.outputPath output, text⟩)
        { s with files :=
          { s.files with texts := s.files.texts.store ⟨format.outputPath output, text⟩ } }
  | resumes {s : SessionWithFiles} (before : List Job) {after : List Job} (job : Job)
      (waits : s.jobs = before ++ job :: after) {reply : job.stage.request.Reply}
      {files : BusyFiles} (answers : Answers s.files job.stage.request job.standing reply files) :
      Step s (.resumes job.stage reply)
        ⟨(job.stage.resume s.session reply).1, files,
          before ++ begun (job.stage.resume s.session reply).2 ++ after⟩

/-- Nothing is open, and nothing is under way. -/
def fresh (engine : Preview.Engine) (texts : Texts) : SessionWithFiles :=
  ⟨.start engine, ⟨texts, []⟩, []⟩

/-- A write that has not landed, whether or not its request is over. -/
def Out (s : SessionWithFiles) (w : Write) : Prop :=
  w ∈ s.files.late ∨ ∃ job ∈ s.jobs, job.standing = .begun ∧ job.stage.request.write? = some w

/-- The write that lands in a move. -/
def Act.landed? : Act → Option Write
  | .proceeds job => if job.standing = .landed then job.stage.request.write? else none
  | .drifts w => some w
  | .draws w => some w
  | _ => none

/-- The stages that operations come to in a move. -/
def Act.next (session : Session) : Act → List Stage
  | .starts action => (action.start session).2.next
  | .resumes stage reply => (stage.resume session reply).2.next
  | _ => []

/-! ## What a step does -/

variable {s t : SessionWithFiles} {act : Act} {w : Write}

/-- What the buffer holds after a step: what it held before, unless it was edited or a reply
    changed it. -/
inductive Copies (s : SessionWithFiles) : Act → Option Copy → Prop
  | keeps (act : Act) : Copies s act s.session.copy
  | edits (content : String) (cursor : Nat) :
      Copies s (.edits content cursor)
        (s.session.copy.map fun c => { c with content, dirty := true })
  | turns {stage : Stage} {reply : stage.request.Reply} {copy : Option Copy}
      (turns : Session.Turns s.session stage reply copy) : Copies s (.resumes stage reply) copy

theorem Step.copies (step : Step s act t) : Copies s act t.session.copy := by
  cases step with
  | starts action =>
    rw [action.start_copy]
    exact .keeps _
  | edits content cursor =>
    have copy : (s.session.edit content cursor).1.copy =
        s.session.copy.map fun c => { c with content, dirty := true } := by
      simp only [Session.copy, Session.edit, Option.map_map]
      rfl
    exact copy ▸ .edits content cursor
  | moves offset =>
    have copy : (s.session.moveCursor offset).1.copy = s.session.copy := by
      simp only [Session.copy, Session.moveCursor, Option.map_map]
      rfl
    exact copy ▸ .keeps _
  | proceeds => exact .keeps _
  | drifts => exact .keeps _
  | draws => exact .keeps _
  | resumes => exact .turns (Stage.resume_turns _ _ _)

/-- Where a job comes from that waits after a step: it has waited before, its request took
    effect just now, or its request has begun. -/
inductive Comes (s : SessionWithFiles) (act : Act) (job : Job) : Prop
  | waited (mem : job ∈ s.jobs)
  | effected {old : Job} (mem : old ∈ s.jobs) (same : old.stage = job.stage)
      (did : act = .proceeds job) (standing : job.standing ≠ .begun)
  | asked (next : job.stage ∈ act.next s.session) (begun : job.standing = .begun)

theorem Step.comes {job : Job} (step : Step s act t) (mem : job ∈ t.jobs) : Comes s act job := by
  have asked : ∀ {progress : Progress Stage Result}, job ∈ SessionWithFiles.begun progress →
      job.standing = .begun ∧ job.stage ∈ progress.next := by
    intro progress mem
    obtain ⟨stage, next, rfl⟩ := List.mem_map.mp mem
    exact ⟨rfl, next⟩
  cases step with
  | starts action =>
    rcases List.mem_append.mp mem with old | new
    · exact .waited old
    · exact .asked (asked new).2 (asked new).1
  | @proceeds before after other waits standing files proceeds =>
    have waiting : other ∈ s.jobs := waits ▸ List.mem_append_cons_self
    rcases eq_or_beside rfl mem with rfl | beside
    · exact .effected waiting rfl rfl proceeds.not_begun
    · exact .waited (mem_of_beside waits beside)
  | @resumes before after other waits reply files answers =>
    rcases beside_or_next mem with old | new
    · exact .waited (mem_of_beside waits old)
    · exact .asked (asked new).2 (asked new).1
  | _ => exact .waited mem

/-- A write that is on its way was so before, or an operation has come to it. -/
theorem asked_of_out (step : Step s act t) (out : Out t w) :
    Out s w ∨ ∃ stage ∈ act.next s.session, stage.request.write? = some w := by
  rcases out with late | ⟨job, mem, begun, writes⟩
  · refine .inl ?_
    cases step with
    | proceeds before job waits proceeds => exact .inl (proceeds.late ▸ late)
    | drifts drifts => exact .inl (drifts.late late)
    | resumes before job waits answers =>
      rcases answers.late late with old | ⟨begun, writes⟩
      · exact .inl old
      · exact .inr ⟨job, waits ▸ List.mem_append_cons_self, begun, writes⟩
    | _ => exact .inl late
  · cases step.comes mem with
    | waited mem => exact .inl (.inr ⟨job, mem, begun, writes⟩)
    | effected mem same did standing => exact absurd begun standing
    | asked next => exact .inr ⟨job.stage, next, writes⟩

/-- A write goes on its way when it is what the buffer holds, or when a file is created. -/
theorem out_of_step (step : Step s act t) (out : Out t w) :
    Out s w ∨ (∃ c, t.session.copy = some c ∧ w = c.write) ∨
      act = .starts (.createFile w.path w.text) := by
  refine (asked_of_out step out).imp_right fun ⟨stage, next, writes⟩ => ?_
  cases step with
  | starts action => exact (Action.start_writes next writes).imp_right (congrArg Act.starts)
  | resumes => exact .inl (Stage.resume_writes _ _ _ stage next w writes)
  | _ => cases next

/-- A file only changes when a write lands. -/
theorem read_of_step (step : Step s act t) (path : Path) :
    (∃ w ∈ act.landed?, w.path.same path ∧ t.files.texts.read path = some w.text) ∨
      t.files.texts.read path = s.files.texts.read path := by
  have stored : ∀ w ∈ act.landed?, t.files.texts = s.files.texts.store w →
      (∃ w ∈ act.landed?, w.path.same path ∧ t.files.texts.read path = some w.text) ∨
        t.files.texts.read path = s.files.texts.read path := by
    intro w lands changed
    rw [changed]
    exact (Texts.read_store _ w path).imp_left fun ⟨here, found⟩ => ⟨w, lands, here, found⟩
  cases step with
  | @proceeds before after job waits standing files proceeds =>
    rcases proceeds.texts with ⟨w, writes, landed, changed⟩ | same
    · exact stored w (by simp [Act.landed?, landed, writes]) changed
    · exact .inr (congrArg (Texts.read · path) same)
  | drifts drifts => exact stored _ rfl drifts.texts
  | draws => exact stored _ rfl rfl
  | resumes before job waits answers => exact .inr (congrArg (Texts.read · path) answers.texts)
  | _ => exact .inr rfl

theorem out_of_landed (step : Step s act t) (lands : w ∈ act.landed?) :
    Out s w ∨ act = .draws w := by
  cases step with
  | @proceeds before after job waits standing files proceeds =>
    have waiting : job ∈ s.jobs := waits ▸ List.mem_append_cons_self
    simp only [Act.landed?] at lands
    split at lands
    · exact .inl (.inr ⟨job, waiting, proceeds.begun, lands⟩)
    · cases lands
  | drifts drifts =>
    obtain rfl := Option.some.inj lands
    exact .inl (.inl drifts.mem)
  | draws =>
    obtain rfl := Option.some.inj lands
    exact .inr rfl
  | _ => cases lands

/-- What a file holds after some moves is what it held before, or a text that has landed
    since. -/
theorem read_of_run {moves : List (Move SessionWithFiles Act)} (run : Run Step s moves t)
    (path : Path) :
    (∃ move ∈ moves, ∃ w ∈ move.act.landed?, w.path.same path ∧
      t.files.texts.read path = some w.text) ∨
      t.files.texts.read path = s.files.texts.read path := by
  induction run with
  | nil => exact .inr rfl
  | snoc earlier step inductionHypothesis =>
    rcases read_of_step step path with ⟨w, lands, here, found⟩ | same
    · exact .inl ⟨_, List.mem_concat_self, w, lands, here, found⟩
    · rw [same]
      exact inductionHypothesis.imp_left fun ⟨move, mem, rest⟩ =>
        ⟨move, List.mem_append_left _ mem, rest⟩

end SessionWithFiles

end LivePreview
