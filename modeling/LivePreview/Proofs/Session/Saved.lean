import LivePreview.Page.Decoder
import LivePreview.Proofs.Session.WithFiles

/-!
# What a clean buffer says of its file

A buffer is clean from the time its file was loaded or its text was saved.  At some moment
before that the file had this text, when it was read or written.  Whether it has it still depends
on what landed since: the writes of operations that overlapped (`clean_buffer_saved`), for the
buffer is marked by its text alone (`saved_text_overwritten`).
-/

namespace LivePreview.SessionWithFiles

open Session (Action AfterLoad AutoSave Save Stage)
open LivePreview.BusyFiles (Standing)

abbrev Moves : Type :=
  List (Move SessionWithFiles Act)

/-! ## Requests that took effect -/

section Requests

variable [ImageDecoder] {s t : SessionWithFiles} {moves : Moves}

theorem Step.of_resumes {stage : Stage} {reply : stage.request.Reply}
    (step : Step s (.resumes stage reply) t) :
    ∃ before after standing, s.jobs = before ++ ⟨stage, standing⟩ :: after ∧
      Answers s.files stage.request standing reply t.files ∧
      t = ⟨(stage.resume s.session reply).1, t.files,
        before ++ begun (stage.resume s.session reply).2 ++ after⟩ := by
  generalize same : Act.resumes stage reply = act at step
  cases step with
  | @resumes before after job waits reply' files answers =>
    obtain ⟨stage', standing⟩ := job
    cases same
    exact ⟨before, after, standing, waits, answers, rfl⟩
  | _ => cases same

theorem read_of_proceeds {stage : Stage} {text : String}
    (step : Step s (.proceeds ⟨stage, .read text⟩) t) :
    ∃ path, stage.request.source? = some path ∧ t.files.texts.read path = some text := by
  generalize same : Act.proceeds ⟨stage, .read text⟩ = act at step
  cases step with
  | @proceeds before after job waits standing files proceeds =>
    obtain ⟨stage', standing'⟩ := job
    cases same
    cases proceeds with
    | reads asks found => exact ⟨_, asks, found⟩
  | _ => cases same

theorem read_of_lands {stage : Stage} (step : Step s (.proceeds ⟨stage, .landed⟩) t) :
    ∃ w, stage.request.write? = some w ∧ t.files.texts.read w.path = some w.text := by
  generalize same : Act.proceeds ⟨stage, .landed⟩ = act at step
  cases step with
  | @proceeds before after job waits standing files proceeds =>
    obtain ⟨stage', standing'⟩ := job
    cases same
    cases proceeds with
    | lands writes => exact ⟨_, writes, Texts.read_store_same (Path.same_refl _)⟩
  | _ => cases same

def Effected (moves : Moves) (s : SessionWithFiles) : Prop :=
  ∀ job ∈ s.jobs, job.standing = .begun ∨ ∃ move ∈ moves, move.act = .proceeds job

theorem effected_of_run {start : SessionWithFiles} (idle : start.jobs = [])
    (run : Run Step start moves s) :
    Effected moves s := by
  refine run.keeps (P := Effected) (fun job mem => ?_)
    fun {moves s act t} effected step job mem => ?_
  · rw [idle] at mem
    cases mem
  · cases step.comes mem with
    | waited mem =>
      exact (effected job mem).imp_right fun ⟨move, mem, same⟩ =>
        ⟨move, List.mem_append_left _ mem, same⟩
    | effected mem same did =>
      exact .inr ⟨_, List.mem_concat_self, did⟩
    | asked next begun => exact .inl begun

end Requests

/-! ## How a buffer became clean -/

/-- A request took effect by one act and was answered in the other one, by which the buffer
    became clean: the file was loaded, or its text was saved. -/
inductive Marks : Act → Act → Path → String → Prop
  | loads (path : Path) (next : AfterLoad) (content : String) :
      Marks (.proceeds ⟨.loading path next, .read content⟩)
        (.resumes (.loading path next) (.ok content)) path content
  | saves (save : Save) (auto : Option AutoSave) {path : Path} (same : path.same save.path) :
      Marks (.proceeds ⟨.saving save auto, .landed⟩) (.resumes (.saving save auto) (.ok ())) path
        save.content

/-- Moves in which the buffer holds the same, and no file is loaded. -/
def Still (c : Copy) (moves : Moves) : Prop :=
  ∀ move ∈ moves, move.after.session.copy = some c ∧
    ∀ path next text, move.act ≠ .resumes (.loading path next) (.ok text)

/-- A buffer became clean in a move, and has stayed as it was then. -/
def Marked (moves : Moves) (c : Copy) : Prop :=
  ∃ first mark tail, moves = first ++ mark :: tail ∧
    (∃ taken ∈ first, Marks taken.act mark.act c.path c.content) ∧ Still c tail

section Marked

variable {s t : SessionWithFiles} {act : Act} {moves : Moves} {c : Copy}

theorem Marked.snoc (marked : Marked moves c) (kept : t.session.copy = some c)
    (other : ∀ path next text, act ≠ .resumes (.loading path next) (.ok text)) :
    Marked (moves ++ [⟨s, act, t⟩]) c := by
  obtain ⟨first, mark, tail, rfl, taken, still⟩ := marked
  refine ⟨first, mark, tail ++ [⟨s, act, t⟩], by simp, taken, fun move mem => ?_⟩
  rcases List.mem_append.mp mem with old | new
  · exact still move old
  · obtain rfl := List.mem_singleton.mp new
    exact ⟨kept, other⟩

theorem Marked.now {path : Path} {content : String}
    (marks : ∃ taken ∈ moves, Marks taken.act act path content) :
    Marked (moves ++ [⟨s, act, t⟩]) ⟨path, content, false⟩ :=
  ⟨moves, ⟨s, act, t⟩, [], rfl, marks, fun _ mem => nomatch mem⟩

variable [ImageDecoder]

theorem marks_of_load (effected : Effected moves s) {path : Path} {next : AfterLoad}
    {content : String} (step : Step s (.resumes (.loading path next) (.ok content)) t) :
    ∃ taken ∈ moves,
      Marks taken.act (.resumes (.loading path next) (.ok content)) path content := by
  obtain ⟨before, after, standing, waits, answers, -⟩ := step.of_resumes
  obtain rfl := answers.of_read
  have waiting : ⟨.loading path next, .read content⟩ ∈ s.jobs :=
    waits ▸ List.mem_append_cons_self
  rcases effected _ waiting with begun | ⟨taken, mem, act⟩
  · cases begun
  · exact ⟨taken, mem, act ▸ .loads path next content⟩

theorem marks_of_save (effected : Effected moves s) {save : Save} {auto : Option AutoSave}
    (step : Step s (.resumes (.saving save auto) (.ok ())) t) {path : Path}
    (same : path.same save.path) :
    ∃ taken ∈ moves, Marks taken.act (.resumes (.saving save auto) (.ok ())) path save.content := by
  obtain ⟨before, after, standing, waits, answers, -⟩ := step.of_resumes
  have waiting : ⟨.saving save auto, standing⟩ ∈ s.jobs :=
    waits ▸ List.mem_append_cons_self
  generalize t.files = files at answers
  cases answers with
  | written =>
    rcases effected _ waiting with begun | ⟨taken, mem, act⟩
    · cases begun
    · exact ⟨taken, mem, act ▸ .saves save auto same⟩

/-- A buffer that is clean after a step became so in it, or was so before. -/
theorem Marked.step (marked : ∀ c, s.session.copy = some c → c.dirty = false → Marked moves c)
    (effected : Effected moves s) (step : Step s act t) (shown : t.session.copy = some c)
    (clean : c.dirty = false) : Marked (moves ++ [⟨s, act, t⟩]) c := by
  by_cases load : ∃ path next content, act = .resumes (.loading path next) (.ok content)
  · obtain ⟨path, next, content, rfl⟩ := load
    obtain ⟨before, after, standing, waits, answers, became⟩ := step.of_resumes
    have loaded : t.session.copy = some ⟨path, content, false⟩ := by
      rw [became]
      exact Session.afterLoad_copy ..
    obtain rfl := Option.some.inj (shown.symm.trans loaded)
    exact .now (marks_of_load effected step)
  · have other : ∀ path next text, act ≠ .resumes (.loading path next) (.ok text) :=
      fun path next text same => load ⟨path, next, text, same⟩
    have copies := step.copies
    rw [shown] at copies
    generalize became : some c = copy at copies
    cases copies with
    | keeps => exact (marked c became.symm clean).snoc shown other
    | edits content cursor =>
      obtain ⟨old, -, rfl⟩ := Option.map_eq_some_iff.mp became.symm
      cases clean
    | turns turns =>
      cases turns with
      | keeps => exact (marked c became.symm clean).snoc shown other
      | loads path next content => exact absurd rfl (other path next content)
      | saves save auto =>
        obtain ⟨old, held, rfl⟩ := Option.map_eq_some_iff.mp became.symm
        by_cases own : (old.path.same save.path && old.content == save.content) = true
        · simp only [Copy.afterSave, own, if_true]
          obtain ⟨same, text⟩ := Bool.and_eq_true_iff.mp own
          rw [beq_iff_eq.mp text]
          exact .now (marks_of_save effected step same)
        · simp only [Copy.afterSave, own] at shown clean ⊢
          exact (marked old held clean).snoc shown other
      | leaves path => cases became

theorem marked_of_run {engine : Preview.Engine} {texts : Texts}
    (run : Run Step (fresh engine texts) moves s) (shown : s.session.copy = some c)
    (clean : c.dirty = false) : Marked moves c := by
  induction run generalizing c with
  | nil => cases shown
  | snoc earlier step inductionHypothesis =>
    exact .step (fun c shown clean => inductionHypothesis shown clean)
      (effected_of_run rfl earlier) step shown clean

end Marked

/-! ## While the buffer stays clean -/

/-- A file that was to be created has not been loaded: that is still going on, or it failed. -/
def Unloaded (moves : Moves) (s : SessionWithFiles) (path : Path) (text : String) : Prop :=
  (∃ job ∈ s.jobs, job.stage = .creating path text ∨ job.stage = .loading path .finish) ∨
    ∃ move ∈ moves, (∃ f, move.act = .resumes (.creating path text) (.error f)) ∨
      ∃ e, move.act = .resumes (.loading path .finish) (.error e)

section Still

variable {s t : SessionWithFiles} {act : Act} {moves : Moves} {c : Copy} {w : Write} {path : Path}
  {text : String}

theorem Still.mono {moves' : Moves} (still : Still c moves) (shorter : moves' ⊆ moves) :
    Still c moves' :=
  fun move mem => still move (shorter mem)

variable [ImageDecoder]

/-- A job that waits goes on waiting, unless it is the one that is answered. -/
theorem Step.waits (step : Step s act t) {job : Job} (mem : job ∈ s.jobs) :
    (∃ other ∈ t.jobs, other.stage = job.stage) ∨
      ∃ reply, act = .resumes job.stage reply ∧
        begun (job.stage.resume s.session reply).2 ⊆ t.jobs := by
  cases step with
  | starts => exact .inl ⟨job, List.mem_append_left _ mem, rfl⟩
  | @proceeds before after other waits standing files proceeds =>
    rcases eq_or_beside waits mem with rfl | old
    · exact .inl ⟨_, List.mem_append_cons_self, rfl⟩
    · exact .inl ⟨job, mem_of_beside rfl old, rfl⟩
  | @resumes before after other waits reply files answers =>
    rw [waits] at mem
    simp only [List.mem_append, List.mem_cons] at mem ⊢
    rcases mem with mem | rfl | mem
    · exact .inl ⟨job, .inl (.inl mem), rfl⟩
    · exact .inr ⟨reply, rfl, fun _ new => List.mem_append_left _ (List.mem_append_right _ new)⟩
    · exact .inl ⟨job, .inr mem, rfl⟩
  | _ => exact .inl ⟨job, mem, rfl⟩

theorem Unloaded.snoc (unloaded : Unloaded moves s path text) (step : Step s act t)
    (other : ∀ text, act ≠ .resumes (.loading path .finish) (.ok text)) :
    Unloaded (moves ++ [⟨s, act, t⟩]) t path text := by
  rcases unloaded with ⟨job, mem, stage⟩ | ⟨move, mem, failed⟩
  · rcases step.waits mem with ⟨next, mem, same⟩ | ⟨reply, rfl, goesOn⟩
    · exact .inl ⟨next, mem, by rwa [same]⟩
    · obtain ⟨stage', standing⟩ := job
      rcases stage with rfl | rfl
      · cases reply with
        | error f => exact .inr ⟨_, List.mem_concat_self, .inl ⟨f, rfl⟩⟩
        | ok done => exact .inl ⟨_, goesOn (List.mem_singleton_self _), .inr rfl⟩
      · cases reply with
        | error e => exact .inr ⟨_, List.mem_concat_self, .inr ⟨e, rfl⟩⟩
        | ok text => exact absurd rfl (other text)
  · exact .inr ⟨move, List.mem_append_left _ mem, failed⟩

theorem Unloaded.begun (step : Step s (.starts (.createFile path text)) t) :
    Unloaded moves t path text := by
  cases step with
  | starts => exact .inl ⟨_, List.mem_concat_self, .inl rfl⟩

/-- While the buffer stays clean, nothing else goes on its way than its own text and files that
    are created, and these are not loaded. -/
theorem out_of_run (run : Run Step s moves t) (still : Still c moves) (out : Out t w) :
    Out s w ∨ w = c.write ∨ Unloaded moves t w.path w.text := by
  induction run with
  | nil => exact .inl out
  | @snoc moves s' t act earlier step inductionHypothesis =>
    obtain ⟨kept, other⟩ := still _ List.mem_concat_self
    rcases out_of_step step out with before | ⟨c', shown, rfl⟩ | rfl
    · exact (inductionHypothesis (still.mono (List.subset_append_left ..)) before).imp_right
        (.imp_right fun unloaded => unloaded.snoc step fun text => other _ _ text)
    · obtain rfl := Option.some.inj (kept.symm.trans shown)
      exact .inr (.inl rfl)
    · exact .inr (.inr (.begun step))

theorem Unloaded.along {first : Moves} (unloaded : Unloaded first s path text)
    (run : Run Step s moves t) (still : Still c moves) : Unloaded (first ++ moves) t path text := by
  induction run with
  | nil => rwa [List.append_nil]
  | snoc earlier step inductionHypothesis =>
    rw [← List.append_assoc]
    have known := inductionHypothesis (still.mono (List.subset_append_left ..))
    exact known.snoc step fun text =>
      (still _ List.mem_concat_self).2 _ _ text

end Still

/-! ## Every run -/

/-- How another text can have come over that of a clean buffer: its write landed before the
    request was answered by which the buffer became clean, or was still on its way then; or it
    is that of a file that was to be created since and has not been loaded, or of an export. -/
inductive Covers (mid : Moves) (mark : Move SessionWithFiles Act) (tail : Moves)
    (s : SessionWithFiles) (w : Write) :
    Prop
  | before (lands : ∃ move ∈ mid, w ∈ move.act.landed?)
  | behind (out : Out mark.after w)
  | created (unloaded : Unloaded tail s w.path w.text)
  | drawn (draws : ∃ move ∈ tail, move.act = .draws w)

section Runs

variable [ImageDecoder]

theorem texts_of_marks {s t : SessionWithFiles} {act markAct : Act} {path : Path} {content : String}
    (marks : Marks act markAct path content) (step : Step s act t) :
    t.files.texts.read path = some content := by
  cases marks with
  | loads path next content =>
    obtain ⟨path', asks, found⟩ := read_of_proceeds step
    obtain rfl := Option.some.inj asks
    exact found
  | saves save auto same =>
    obtain ⟨w, writes, found⟩ := read_of_lands step
    obtain rfl := Option.some.inj writes
    exact (Texts.read_of_same same).trans found

theorem Marks.texts {s t : SessionWithFiles} {act markAct : Act} {path : Path} {content : String}
    (marks : Marks act markAct path content) (step : Step s markAct t) (other : Path) :
    t.files.texts.read other = s.files.texts.read other := by
  rcases read_of_step step other with ⟨w, lands, -⟩ | same
  · cases marks <;> cases lands
  · exact same

/-- Whenever the buffer is clean, whatever operations overlap: at some moment its file had its
    text, the request that read or wrote it was answered later, and has it still unless another
    write has come over it. -/
theorem clean_buffer_saved {engine : Preview.Engine} {texts : Texts} {moves : Moves}
    {s : SessionWithFiles} (run : Run Step (fresh engine texts) moves s) {b : Buffer}
    (shown : s.session.buffer = some b) (clean : b.dirty = false) :
    ∃ first taken mid mark tail, moves = first ++ taken :: mid ++ mark :: tail ∧
      Marks taken.act mark.act b.path b.content ∧
      taken.after.files.texts.read b.path = some b.content ∧
      (s.files.texts.read b.path = some b.content ∨
        ∃ w, w.path.same b.path ∧ s.files.texts.read b.path = some w.text ∧
          Covers mid mark tail s w) := by
  have copied : s.session.copy = some b.copy := Option.map_eq_some_iff.mpr ⟨b, shown, rfl⟩
  obtain ⟨upTo, mark, tail, cut, ⟨taken, mem, marks⟩, still⟩ := marked_of_run run copied clean
  obtain ⟨first, mid, rfl⟩ := List.append_of_mem mem
  obtain ⟨earlier, marked, later⟩ := run.around cut
  obtain ⟨-, takes, between⟩ := earlier.around rfl
  have held := texts_of_marks marks takes
  refine ⟨first, taken, mid, mark, tail, cut, marks, held, ?_⟩
  rcases read_of_run later b.path with ⟨move, mem, w, lands, here, found⟩ | same
  · obtain ⟨before, rest, rfl⟩ := List.append_of_mem mem
    obtain ⟨led, step, follows⟩ := later.around rfl
    rcases out_of_landed step lands with out | draws
    · rcases out_of_run led (still.mono (List.subset_append_left ..)) out with
        out | rfl | unloaded
      · exact .inr ⟨w, here, found, .behind out⟩
      · exact .inl found
      · refine .inr ⟨w, here, found, .created ?_⟩
        exact unloaded.along ((Run.one step).append follows)
          (still.mono (List.subset_append_right ..))
    · exact .inr ⟨w, here, found, .drawn ⟨move, mem, draws⟩⟩
  · rw [same, marks.texts marked b.path]
    rcases read_of_run between b.path with ⟨move, mem, w, lands, here, found⟩ | same'
    · exact .inr ⟨w, here, found, .before ⟨move, mem, lands⟩⟩
    · exact .inl (same'.trans held)

end Runs

/-- Whether a clean buffer has its text in its file when nothing is under way. -/
def KeepsSaved (s : SessionWithFiles) : Prop :=
  s.jobs = [] → s.files.late = [] → ∀ b, s.session.buffer = some b → b.dirty = false →
    s.files.texts.read b.path = some b.content

attribute [local instance] pngDecoder

/-- A save has written "b" and waits for its answer, while the file is created anew with "c" and
    loaded, and "c" is edited to "b".  The answer marks the buffer as saved. -/
theorem overwritten_save : ∃ (moves : Moves) (s : SessionWithFiles),
    Run Step (fresh (.start 4) ⟨fun _ => some "a"⟩) moves s ∧ s.jobs = [] ∧ s.files.late = [] ∧
      s.session.buffer = some ⟨⟨"p.typ"⟩, "b", false, 0⟩ ∧
      s.files.texts.read ⟨"p.typ"⟩ = some "c" := by
  let p : Path := ⟨"p.typ"⟩
  have opened := ((Run.nil.snoc
    (Step.starts (fresh (.start 4) ⟨fun _ => some "a"⟩) (.openFile p))).snoc
    (.proceeds [] ⟨.loading p .finish, .begun⟩ rfl (.reads rfl rfl))).snoc
    (.resumes [] ⟨.loading p .finish, .read "a"⟩ rfl (.read p "a"))
  have saving := ((opened.snoc (.edits _ "b" 0)).snoc (.starts _ (.save true))).snoc
    (.proceeds [] ⟨.saving ⟨p, "b", true⟩ none, .begun⟩ rfl (.lands rfl))
  have created := ((saving.snoc (.starts _ (.createFile p "c"))).snoc
    (.proceeds [_] ⟨.creating p "c", .begun⟩ rfl (.lands rfl))).snoc
    (.resumes [_] ⟨.creating p "c", .landed⟩ rfl (.called (fun _ => rfl) (.ok ())))
  have loaded := (created.snoc
    (.proceeds [_] ⟨.loading p .finish, .begun⟩ rfl
      (.reads rfl (show Texts.read _ p = some "c" by decide +kernel)))).snoc
    (.resumes [_] ⟨.loading p .finish, .read "c"⟩ rfl (.read p "c"))
  have saved := (loaded.snoc (.edits _ "b" 0)).snoc
    (.resumes [] ⟨.saving ⟨p, "b", true⟩ none, .landed⟩ rfl (.written p "b"))
  exact ⟨_, _, saved, rfl, rfl, by decide +kernel, by decide +kernel⟩

/-- The buffer is clean, and its text is not in its file. -/
theorem saved_text_overwritten : ∃ (moves : Moves) (s : SessionWithFiles),
    Run Step (fresh (.start 4) ⟨fun _ => some "a"⟩) moves s ∧ ¬ KeepsSaved s := by
  obtain ⟨moves, s, run, idle, none, shown, found⟩ := overwritten_save
  refine ⟨moves, s, run, fun keeps => ?_⟩
  exact absurd (found.symm.trans (keeps idle none _ shown rfl)) (by decide)

/-- Its text was there when the save wrote it, and another one has come over it. -/
theorem overwritten_save_covered : ∃ (moves : Moves) (s : SessionWithFiles),
    Run Step (fresh (.start 4) ⟨fun _ => some "a"⟩) moves s ∧
    ∃ first taken mid mark tail, moves = first ++ taken :: mid ++ mark :: tail ∧
      Marks taken.act mark.act ⟨"p.typ"⟩ "b" ∧
      taken.after.files.texts.read ⟨"p.typ"⟩ = some "b" ∧
      (s.files.texts.read ⟨"p.typ"⟩ = some "b" ∨
        ∃ w, w.path.same ⟨"p.typ"⟩ ∧ s.files.texts.read ⟨"p.typ"⟩ = some w.text ∧
          Covers mid mark tail s w) := by
  obtain ⟨moves, s, run, -, -, shown, -⟩ := overwritten_save
  exact ⟨moves, s, run, clean_buffer_saved run shown rfl⟩

end LivePreview.SessionWithFiles
