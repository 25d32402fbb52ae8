import LivePreview.Proofs.Session.WithFiles
import LivePreview.Watch.Reload

/-!
# A document that is watched

Other programs write files, changes are noticed and handled one after the other, and compiles
start at any moment; their requests take effect in between.  Only the handling of a change, which
may load the main document, touches the buffer.  A notice stays the first in line until its
handling is over.
-/

namespace LivePreview.Watch

open Session (Action Stage)
open LivePreview.BusyFiles (Standing)
open SessionWithFiles (Out)

/-! ## Handling a change -/

/-- Where the handling of a change waits. -/
inductive Handling where
  /-- For the text that is compared with the buffer. -/
  | comparing (path : Path)
  /-- For the document to be opened. -/
  | opening (stage : Stage)
  deriving DecidableEq

@[reducible] def Handling.request : Handling → Session.Request
  | .comparing path => .read path
  | .opening stage => stage.request

/-- The opening of a document goes on, or the reload ends with it. -/
def opens (cursor : Nat) (step : Session.Step) : Session × Option Handling :=
  match step with
  | (session, .waits stage) => (session, some (.opening stage))
  | (session, .ended result) => ((afterOpen session cursor result).1, none)

variable [ImageDecoder]

/-- The step after an answer; nothing follows when the change has been handled. -/
def Handling.resume (cursor : Nat) (session : Session) (handling : Handling)
    (reply : handling.request.Reply) : Session × Option Handling :=
  match handling, reply with
  | .comparing path, reply =>
    match response session path reply with
    | none => (session, none)
    | some action => opens cursor (action.start session)
  | .opening stage, reply => opens cursor (stage.resume session reply)

/-! ## The system -/

/-- The handling of a change, with what has come of its request. -/
structure Reload where
  handling : Handling
  standing : Standing
  deriving DecidableEq

structure Watching where
  running : SessionWithFiles
  /-- The files that have changed, in the order of the notices. -/
  notices : List Path
  /-- The handling of the first notice. -/
  reload : Option Reload
  /-- How many notices have been handled. -/
  handled : Nat

namespace Watching

abbrev session (s : Watching) : Session :=
  s.running.session

abbrev texts (s : Watching) : Texts :=
  s.running.files.texts

/-- How many notices there have been. -/
def raised (s : Watching) : Nat :=
  s.handled + s.notices.length

def written (s : Watching) (w : Write) : Watching :=
  { s with
    running := { s.running with files := { s.running.files with texts := s.texts.store w } }
    notices := s.notices ++ [w.path] }

def next (s : Watching) : Watching :=
  { s with notices := s.notices.tail, reload := none, handled := s.handled + 1 }

/-- The handling of a change has come to another request, or is over. -/
def settle (s : Watching) (files : BusyFiles) (step : Session × Option Handling) : Watching :=
  let s : Watching := { s with running := { s.running with session := step.1, files } }
  match step.2 with
  | some handling => { s with reload := some ⟨handling, .begun⟩ }
  | none => s.next

/-- Whether the buffer has this text. -/
def Shows (s : Watching) (text : String) : Prop :=
  ∃ c, s.session.copy = some c ∧ c.content = text

end Watching

inductive Act where
  /-- Another program writes a file. -/
  | writes (w : Write)
  /-- A change is noticed that need not be a write of another program. -/
  | stirs (path : Path)
  | fires
  /-- A compile that has started goes on. -/
  | works (act : SessionWithFiles.Act)
  /-- The first notice is of no concern to the buffer. -/
  | passes
  /-- The handling of the first notice begins. -/
  | takes (path : Path)
  /-- The request of the handling takes effect. -/
  | proceeds (reload : Reload)
  | answers (handling : Handling) (reply : handling.request.Reply)

/-- Whether a move is one of operations that have started. -/
def IsWork : SessionWithFiles.Act → Prop
  | .proceeds _ => True
  | .drifts _ => True
  | .resumes _ _ => True
  | _ => False

inductive Step (main : Path) (cursor : Nat) : Watching → Act → Watching → Prop
  | writes (s : Watching) (w : Write) : Step main cursor s (.writes w) (s.written w)
  | stirs (s : Watching) (path : Path) :
      Step main cursor s (.stirs path) { s with notices := s.notices ++ [path] }
  | fires {s : Watching} {running : SessionWithFiles}
      (step : SessionWithFiles.Step s.running (.starts .compile) running) :
      Step main cursor s .fires { s with running }
  | works {s : Watching} {act : SessionWithFiles.Act} {running : SessionWithFiles}
      (work : IsWork act) (step : SessionWithFiles.Step s.running act running) :
      Step main cursor s (.works act) { s with running }
  | passes {s : Watching} {path : Path} {rest : List Path} (first : s.notices = path :: rest)
      (idle : s.reload = none) (other : ¬ path.same main) : Step main cursor s .passes s.next
  | takes {s : Watching} (path : Path) {rest : List Path} (first : s.notices = path :: rest)
      (idle : s.reload = none) (here : path.same main) :
      Step main cursor s (.takes path) { s with reload := some ⟨.comparing path, .begun⟩ }
  | proceeds {s : Watching} (handling : Handling) {standing : Standing}
      (waits : s.reload = some ⟨handling, standing⟩) {standing' : Standing} {files : BusyFiles}
      (proceeds : BusyFiles.Proceeds handling.request.write? handling.request.source?
        s.running.files standing standing' files) :
      Step main cursor s (.proceeds ⟨handling, standing'⟩)
        { s with running := { s.running with files }, reload := some ⟨handling, standing'⟩ }
  | answers {s : Watching} (handling : Handling) {standing : Standing}
      (waits : s.reload = some ⟨handling, standing⟩) {reply : handling.request.Reply}
      {files : BusyFiles}
      (answers : SessionWithFiles.Answers s.running.files handling.request standing reply files) :
      Step main cursor s (.answers handling reply)
        (s.settle files (handling.resume cursor s.session reply))

/-- Nothing is under way when the watching begins. -/
def start (session : Session) (texts : Texts) : Watching :=
  ⟨⟨session, ⟨texts, []⟩, []⟩, [], none, 0⟩

abbrev Moves : Type :=
  List (Move Watching Act)

/-- The write of a compile that lands in a move. -/
def Act.landed? : Act → Option Write
  | .works act => act.landed?
  | _ => none

/-- The main document could not be read in the handling of a change. -/
inductive Act.Misses : Act → Prop
  | compared (path : Path) (e : SystemError) : Misses (.answers (.comparing path) (.error e))
  | opened (path : Path) (e : SystemError) :
      Misses (.answers (.opening (.loading path .finish)) (.error e))

/-! ## Compiles under way -/

def IsCycle (stage : Stage) : Prop :=
  ∃ cycle selected, stage = .cycling cycle selected

omit [ImageDecoder] in
/-- A compile that starts writes the buffer through. -/
theorem startCompile_next {session : Session} {stage : Stage}
    (mem : stage ∈ (session.startCompile false).2.next) :
    IsCycle stage ∧ ∀ w, stage.request.write? = some w →
      ∃ c, session.copy = some c ∧ w = c.write := by
  refine ⟨?_, fun w writes => ?_⟩
  · unfold Session.startCompile at mem
    split at mem
    · cases mem
    · obtain rfl := List.mem_singleton.mp mem
      exact ⟨_, _, rfl⟩
  · have written := session.startCompile_writes false stage mem w writes
    rwa [Session.startCompile_copy] at written

theorem resume_next {session : Session} {stage next : Stage} (cycles : IsCycle stage)
    {reply : stage.request.Reply} (mem : next ∈ (stage.resume session reply).2.next) :
    IsCycle next ∧ next.request.write? = none := by
  obtain ⟨cycle, selected, rfl⟩ := cycles
  have resumes := (Stage.cycling cycle selected).resumes session reply
  generalize Stage.resume session (.cycling cycle selected) reply = step at resumes mem
  cases resumes with
  | refused refuses => cases refuses
  | cyclesOn cycle selected reply resumed =>
    obtain rfl := List.mem_singleton.mp mem
    have succeeds := Preview.Cycle.succeeds_of_resume resumed
    exact ⟨⟨_, _, rfl⟩, BusyFiles.write?_of_succeeds succeeds⟩
  | concludes => cases mem

theorem resume_copy {session : Session} {stage : Stage} (cycles : IsCycle stage)
    (reply : stage.request.Reply) : (stage.resume session reply).1.copy = session.copy := by
  obtain ⟨cycle, selected, rfl⟩ := cycles
  have turns := Stage.resume_turns session (.cycling cycle selected) reply
  generalize (Stage.resume session (.cycling cycle selected) reply).1.copy = copy at turns ⊢
  cases turns
  rfl

section Works

variable {s t : SessionWithFiles} {act : SessionWithFiles.Act} {w : Write}

theorem copy_of_fires (step : SessionWithFiles.Step s (.starts .compile) t) :
    t.session.copy = s.session.copy := by
  cases step
  exact Session.startCompile_copy ..

theorem copy_of_works (cycles : ∀ job ∈ s.jobs, IsCycle job.stage) (work : IsWork act)
    (step : SessionWithFiles.Step s act t) : t.session.copy = s.session.copy := by
  cases step with
  | proceeds => rfl
  | drifts => rfl
  | resumes before job waits answers =>
    exact resume_copy (cycles job (waits ▸ List.mem_append_cons_self)) _
  | _ => cases work

theorem next_of_works (cycles : ∀ job ∈ s.jobs, IsCycle job.stage) (work : IsWork act)
    (step : SessionWithFiles.Step s act t) {stage : Stage} (mem : stage ∈ act.next s.session) :
    IsCycle stage ∧ stage.request.write? = none := by
  cases step with
  | resumes before job waits answers =>
    exact resume_next (cycles job (waits ▸ List.mem_append_cons_self)) mem
  | _ => first | cases mem | cases work

theorem cycles_of_step (cycles : ∀ job ∈ s.jobs, IsCycle job.stage)
    (next : ∀ stage ∈ act.next s.session, IsCycle stage) (step : SessionWithFiles.Step s act t) :
    ∀ job ∈ t.jobs, IsCycle job.stage := by
  intro job mem
  cases step.comes mem with
  | waited mem => exact cycles job mem
  | effected mem same => exact same ▸ cycles _ mem
  | asked mem => exact next _ mem

theorem out_of_fires (step : SessionWithFiles.Step s (.starts .compile) t) (out : Out t w) :
    Out s w ∨ ∃ c, s.session.copy = some c ∧ w = c.write :=
  (SessionWithFiles.asked_of_out step out).imp_right fun ⟨_, mem, writes⟩ =>
    (startCompile_next mem).2 w writes

theorem out_of_works (cycles : ∀ job ∈ s.jobs, IsCycle job.stage) (work : IsWork act)
    (step : SessionWithFiles.Step s act t) (out : Out t w) : Out s w := by
  rcases SessionWithFiles.asked_of_out step out with before | ⟨stage, mem, writes⟩
  · exact before
  · rw [(next_of_works cycles work step mem).2] at writes
    cases writes

theorem out_of_lands (work : IsWork act) (step : SessionWithFiles.Step s act t)
    (lands : w ∈ act.landed?) :
    Out s w := by
  rcases SessionWithFiles.out_of_landed step lands with out | rfl
  · exact out
  · cases work

end Works

/-! ## Reloads -/

/-- A reload reads the main document and nothing else. -/
inductive Handling.Reads (main : Path) : Handling → Prop
  | comparing {path : Path} (here : path.same main) : Reads main (.comparing path)
  | opening {path : Path} (here : path.same main) : Reads main (.opening (.loading path .finish))

/-- All that an answer can lead to in a reload. -/
inductive Reloads (session : Session) :
    (handling : Handling) → handling.request.Reply → Session × Option Handling → Prop
  | missing (path : Path) (e : SystemError) :
      Reloads session (.comparing path) (.error e) (session, none)
  /-- The buffer has this text. -/
  | own (path : Path) {text : String} {c : Copy} (shown : session.copy = some c)
      (same : c.content = text) : Reloads session (.comparing path) (.ok text) (session, none)
  | other (path : Path) (text : String) :
      Reloads session (.comparing path) (.ok text)
        (session, some (.opening (.loading path .finish)))
  | unopened (path : Path) (e : SystemError) {after : Session} (kept : after.copy = session.copy) :
      Reloads session (.opening (.loading path .finish)) (.error e) (after, none)
  | opened (path : Path) (text : String) {after : Session}
      (loaded : after.copy = some ⟨path, text, false⟩) :
      Reloads session (.opening (.loading path .finish)) (.ok text) (after, none)

omit [ImageDecoder] in
theorem copy_of_own {session : Session} {text : String}
    (own : session.snapshot.any fun source => source.content == text) :
    ∃ c, session.copy = some c ∧ c.content = text := by
  cases shown : session.buffer with
  | none => simp [Session.snapshot, shown] at own
  | some b =>
    exact ⟨b.copy, by simp [Session.copy, shown],
      by simpa [Session.snapshot, shown, Buffer.snapshot, Buffer.copy] using own⟩

theorem Handling.resume_reloads {main : Path} (handling : Handling) (reads : handling.Reads main)
    (cursor : Nat) (session : Session) (reply : handling.request.Reply) :
    Reloads session handling reply (handling.resume cursor session reply) := by
  cases reads with
  | @comparing path here =>
    cases reply with
    | error e => exact .missing path e
    | ok text =>
      by_cases own : session.snapshot.any fun source => source.content == text
      · simp only [Handling.resume, response, own, if_true]
        obtain ⟨c, shown, same⟩ := copy_of_own own
        exact .own path shown same
      · simp only [Handling.resume, response, own]
        exact .other path text
  | @opening path here =>
    cases reply with
    | error e => exact .unopened path e rfl
    | ok text => exact .opened path text rfl

/-! ## What every state keeps to -/

/-- Only compiles are under way beside the handling of the first notice, which reads the main
    document. -/
structure Orderly (main : Path) (s : Watching) : Prop where
  cycles : ∀ job ∈ s.running.jobs, IsCycle job.stage
  reads : ∀ reload ∈ s.reload, reload.handling.Reads main
  first : s.reload.isSome → s.notices ≠ []

variable {main : Path} {cursor : Nat} {s t : Watching} {act : Act} {w : Write}

omit [ImageDecoder] in
theorem Handling.Reads.write? {handling : Handling} (reads : handling.Reads main) :
    handling.request.write? = none := by
  cases reads <;> rfl

omit [ImageDecoder] in
theorem Handling.Reads.source? {handling : Handling} (reads : handling.Reads main) :
    ∃ path, handling.request.source? = some path ∧ path.same main := by
  cases reads with
  | comparing here => exact ⟨_, rfl, here⟩
  | opening here => exact ⟨_, rfl, here⟩

theorem Orderly.step (orderly : Orderly main s) (step : Step main cursor s act t) :
    Orderly main t := by
  obtain ⟨cycles, reads, first⟩ := orderly
  cases step with
  | writes w => exact ⟨cycles, reads, fun _ => List.append_ne_nil_of_right_ne_nil _ (by simp)⟩
  | stirs path => exact ⟨cycles, reads, fun _ => List.append_ne_nil_of_right_ne_nil _ (by simp)⟩
  | fires step =>
    exact ⟨cycles_of_step cycles (fun stage mem => (startCompile_next mem).1) step, reads, first⟩
  | works work step =>
    exact ⟨cycles_of_step cycles (fun stage mem => (next_of_works cycles work step mem).1) step,
      reads, first⟩
  | passes => exact ⟨cycles, fun _ mem => (nomatch mem), fun some => (nomatch some)⟩
  | takes path waits idle here =>
    refine ⟨cycles, fun reload mem => ?_, fun _ => by simp [waits]⟩
    obtain rfl := Option.some.inj mem
    exact .comparing here
  | proceeds handling waits proceeds =>
    refine ⟨cycles, fun reload mem => ?_, fun _ => first (by simp [waits])⟩
    obtain rfl := Option.some.inj mem
    exact (reads _ waits :)
  | @answers handling standing waits reply files answers =>
    have before : handling.Reads main := reads _ waits
    have reloads := handling.resume_reloads before cursor s.session reply
    generalize handling.resume cursor s.session reply = step at reloads ⊢
    cases reloads with
    | other path text =>
      refine ⟨cycles, fun reload mem => ?_, fun _ => first (by simp [waits])⟩
      obtain rfl := Option.some.inj mem
      cases before with
      | comparing here => exact .opening here
    | _ => exact ⟨cycles, fun _ mem => (nomatch mem), fun some => (nomatch some)⟩

end LivePreview.Watch
