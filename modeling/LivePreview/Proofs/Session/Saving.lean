import LivePreview.Page.Decoder
import LivePreview.Proofs.Session.Frame
import LivePreview.Proofs.Session.Saved

/-!
# One save at a time

A save writes the text that the buffer holds when it begins, and the user goes on editing
meanwhile.  The flag of the session is up exactly while a save is writing, and only one is
(`Step.counts_saves`).  A save that is written makes the buffer clean if the buffer shows the text
that was written; all other steps of saves leave the buffer alone (`Act.save?`).
-/

namespace LivePreview

namespace Session

open Preview (Cycle Progress)

/-! ## The flag -/

def Stage.isSaving : Stage → Bool
  | .saving _ _ => true
  | _ => false

/-- A step with which no save begins or ends. -/
structure Step.IsAside (s : Session) (step : Step) : Prop where
  flag : step.1.saving = s.saving
  next : ∀ stage ∈ step.2.next, stage.isSaving = false

theorem Step.IsAside.of_ended {s s' : Session} {result : Result} (flag : s'.saving = s.saving) :
    IsAside s (s', .ended result) :=
  ⟨flag, fun _ mem => nomatch mem⟩

theorem Step.IsAside.of_waits {s s' : Session} {stage : Stage} (flag : s'.saving = s.saving)
    (other : stage.isSaving = false) : IsAside s (s', .waits stage) :=
  ⟨flag, fun _ mem => List.mem_singleton.mp mem ▸ other⟩

/-- The flag is a count of the saves that are writing: it goes down by the save that ends with a
    step, if `ends`, and up by the one that begins. -/
def Step.Counts (s : Session) (ends : Bool) (step : Step) : Prop :=
  step.1.saving.toNat + ends.toNat = s.saving.toNat + step.2.next.countP Stage.isSaving

theorem Step.IsAside.saves {s : Session} {step : Step} (aside : IsAside s step) :
    step.2.next.countP Stage.isSaving = 0 :=
  List.countP_eq_zero.mpr fun stage mem => Bool.eq_false_iff.mp (aside.next stage mem)

theorem Step.IsAside.counts {s : Session} {step : Step} (aside : IsAside s step) :
    step.Counts s false := by
  rw [Counts, aside.flag, aside.saves]
  rfl

theorem startCompile_isAside {s s' : Session} (flag : s'.saving = s.saving) (selected : Bool) :
    (s'.startCompile selected).IsAside s := by
  unfold startCompile
  split
  · exact .of_ended flag
  · exact .of_waits flag rfl

theorem endSave_isAside {s s' : Session} (flag : s'.saving = s.saving) (auto : Option AutoSave)
    (outcome : SaveOutcome) : (s'.endSave auto outcome).IsAside s := by
  cases auto with
  | none => exact .of_ended flag
  | some auto => exact .of_waits flag rfl

theorem SaveBegins.counts {s : Session} {explicit : Bool} {auto : Option AutoSave} {step : Step}
    (begins : s.SaveBegins explicit auto step) : step.Counts s false := by
  cases begins with
  | busy => exact (endSave_isAside rfl auto .inProgress).counts
  | writes unset => simp [Step.Counts, unset, Progress.next, Stage.isSaving]
  | nothing =>
    refine (endSave_isAside ?_ auto .clean).counts
    split <;> rfl

/-- The end of a write takes the flag down, whatever came of it. -/
theorem endSave_counts {s s' : Session} (flag : s.saving = true) (unset : s'.saving = false)
    (auto : Option AutoSave) (outcome : SaveOutcome) : (s'.endSave auto outcome).Counts s true := by
  have aside := endSave_isAside (s := s') rfl auto outcome
  rw [Step.Counts, endSave_session, unset, flag, aside.saves]
  rfl

theorem Action.start_counts (s : Session) (action : Action) :
    (action.start s).Counts s false := by
  have starts := action.starts s
  generalize action.start s = step at starts ⊢
  cases starts with
  | saves explicit => exact (s.startSave_begins explicit none).counts
  | compiles => exact (startCompile_isAside rfl false).counts
  | notCompilable | alreadyMain | nothingToRender | nothingToExport =>
    exact (Step.IsAside.of_ended rfl).counts
  | _ => exact (Step.IsAside.of_waits rfl rfl).counts

theorem reveal_saving (s : Session) (path : Path) (position : Nat) :
    (s.reveal path position).saving = s.saving := by
  unfold reveal
  split <;> rfl

theorem Stage.Refuses.isSaving {stage : Stage} {reply : stage.request.Reply} {f : Failure}
    {result : Result} (refuses : stage.Refuses reply f result) : stage.isSaving = false := by
  cases refuses <;> rfl

theorem Stage.resume_counts [ImageDecoder] {s : Session} (stage : Stage)
    (flag : stage.isSaving → s.saving = true) (reply : stage.request.Reply) :
    (stage.resume s reply).Counts s stage.isSaving := by
  have resumes := stage.resumes s reply
  generalize stage.resume s reply = step at resumes ⊢
  cases resumes with
  | refused refuses =>
    rw [refuses.isSaving]
    exact (Step.IsAside.of_ended rfl).counts
  | unwritten save auto => exact endSave_counts (flag rfl) rfl auto _
  | written save auto => exact endSave_counts (flag rfl) rfl auto _
  | savesNext => exact (s.startSave_begins false _).counts
  | recompiles path =>
    have chosen : (s.choose path).saving = s.saving := rfl
    exact (startCompile_isAside chosen true).counts
  | loadsMain path content =>
    have loaded : (s.load path content).saving = s.saving := rfl
    exact (startCompile_isAside loaded true).counts
  | loadsTarget | reveals => exact (Step.IsAside.of_ended (reveal_saving ..)).counts
  | chooses | created | cyclesOn | persisted | reads =>
    exact (Step.IsAside.of_waits rfl rfl).counts
  | _ => exact (Step.IsAside.of_ended rfl).counts

/-! ## The buffer -/

/-- What a save that begins makes of the session is the same whether or not it is one of several. -/
theorem startSave_alone (s : Session) (explicit : Bool) (auto : Option AutoSave) :
    (s.startSave explicit auto).1 = (s.startSave explicit none).1 :=
  (s.startSave_session explicit auto).trans (s.startSave_session explicit none).symm

theorem afterSave_alone (s : Session) (save : Save) (auto : Option AutoSave)
    (reply : Except SystemError Unit) :
    (s.afterSave save auto reply).1 = (s.afterSave save none reply).1 := by
  cases reply <;> simp only [afterSave, endSave_session]

theorem SaveBegins.buffer {s : Session} {explicit : Bool} {auto : Option AutoSave} {step : Step}
    (begins : s.SaveBegins explicit auto step) : step.1.buffer = s.buffer := by
  cases begins with
  | busy => simp
  | writes => rfl
  | nothing => cases explicit <;> simp

/-- A save only changes the buffer when it ends as saved. -/
theorem afterSave_buffer {s : Session} {save : Save} {reply : Except SystemError Unit}
    (unsaved : (s.afterSave save none reply).2 ≠ .ended (.saved .saved)) :
    (s.afterSave save none reply).1.buffer = s.buffer := by
  cases reply with
  | error e => rfl
  | ok _ => exact absurd rfl unsaved

/-- A save that finds another one writing leaves the flag up. -/
theorem SaveBegins.flag {s : Session} {explicit : Bool} {step : Step}
    (begins : s.SaveBegins explicit none step)
    (ends : step.2 = .ended (.saved .inProgress)) : s.saving = true ∧ step.1.saving = true := by
  cases begins with
  | busy set => exact ⟨set, set⟩
  | writes => cases ends
  | nothing => cases ends

end Session

namespace SessionWithFiles

open Session (Action AfterLoad AutoSave Save SaveOutcome Stage)
open LivePreview.BusyFiles (Standing)

section Runs

variable {s t : SessionWithFiles} {act : Act} {moves : Moves}

/-- The number of saves that are writing. -/
def writing (s : SessionWithFiles) : Nat :=
  s.jobs.countP (·.stage.isSaving)

theorem countP_begun (progress : Preview.Progress Stage Session.Result) :
    (begun progress).countP (·.stage.isSaving) = progress.next.countP Stage.isSaving := by
  rw [begun, List.countP_map]
  rfl

/-- A save only changes the buffer when it ends as saved, and leaves the flag up when it finds
    another one writing. -/
structure Spares (s : Session) (step : Session.Step) (t : Session) : Prop where
  session : t = step.1
  buffer : step.2 ≠ .ended (.saved .saved) → t.buffer = s.buffer
  flag : step.2 = .ended (.saved .inProgress) → s.saving = true ∧ t.saving = true

theorem startSave_spares (s : Session) (explicit : Bool) (auto : Option AutoSave) :
    Spares s (s.startSave explicit none) (s.startSave explicit auto).1 where
  session := s.startSave_alone explicit auto
  buffer _ := (s.startSave_begins explicit auto).buffer
  flag ends := by
    rw [s.startSave_alone explicit auto]
    exact (s.startSave_begins explicit none).flag ends

theorem afterSave_spares (s : Session) (save : Save) (auto : Option AutoSave)
    (reply : Except SystemError Unit) :
    Spares s (s.afterSave save none reply) (s.afterSave save auto reply).1 where
  session := s.afterSave_alone save auto reply
  buffer unsaved := by
    rw [s.afterSave_alone save auto reply]
    exact Session.afterSave_buffer unsaved
  flag ends := by cases reply <;> cases ends

variable [ImageDecoder]

/-- The flag stays a count of the saves that are writing. -/
theorem Step.counts_saves (counted : s.writing = s.session.saving.toNat) (step : Step s act t) :
    t.writing = t.session.saving.toNat := by
  cases step with
  | starts action =>
    have counts := action.start_counts s.session
    simp only [Session.Step.Counts, Bool.toNat_false, Nat.add_zero] at counts
    rw [counts, ← counted, ← countP_begun]
    exact List.countP_append
  | @resumes before after job waits reply files answers =>
    have jobs : s.writing = before.countP (·.stage.isSaving) + (job.stage.isSaving.toNat +
        after.countP (·.stage.isSaving)) := by
      rw [writing, waits, List.countP_append, List.countP_cons]
      cases job.stage.isSaving <;> simp [Nat.add_comm]
    have flag : job.stage.isSaving → s.session.saving = true := by
      intro saves
      rw [counted, saves] at jobs
      cases set : s.session.saving <;> simp [set] at jobs ⊢
      omega
    have counts := job.stage.resume_counts flag reply
    rw [Session.Step.Counts, ← counted, jobs, ← countP_begun] at counts
    simp only [writing, List.countP_append]
    omega
  | @proceeds before after job waits =>
    rw [← counted]
    simp only [writing, waits, List.countP_append, List.countP_cons]
  | _ => exact counted

theorem writing_of_run {engine : Preview.Engine} {texts : Texts}
    (run : Run Step (fresh engine texts) moves s) : s.writing = s.session.saving.toNat :=
  run.keeps (P := fun _ s => s.writing = s.session.saving.toNat) rfl
    fun counted step => step.counts_saves counted

/-! ## Steps of saves -/

/-- The step of a save that is taken by an act, as if the save was alone: it begins, asked for or
    as the next of several, or its write is answered. -/
def Act.save? (s : Session) : Act → Option Session.Step
  | .starts (.save explicit) => some (s.startSave explicit none)
  | .resumes (.resting auto) _ =>
    if auto.interval < auto.left then some (s.startSave false none) else none
  | .resumes (.saving save _) reply => some (s.afterSave save none reply)
  | _ => none

theorem Step.spares (step : Step s act t) {save : Session.Step}
    (saves : save ∈ act.save? s.session) : Spares s.session save t.session := by
  cases step with
  | starts action =>
    cases action with
    | save explicit =>
      obtain rfl := Option.some.inj saves
      exact startSave_spares ..
    | _ => cases saves
  | @resumes before after job waits reply files answers =>
    obtain ⟨stage, standing⟩ := job
    cases stage with
    | saving written auto =>
      obtain rfl := Option.some.inj saves
      exact afterSave_spares ..
    | resting auto =>
      simp only [Act.save?, Option.mem_def, Option.ite_none_right_eq_some] at saves
      obtain ⟨goesOn, same⟩ := saves
      obtain rfl := Option.some.inj same
      simp only [Stage.resume, Session.afterRest, if_pos goesOn]
      exact startSave_spares ..
    | _ => cases saves
  | _ => cases saves

/-! ## Edits during a save -/

/-- The save whose write is answered as done. -/
def Act.saved? : Act → Option Save
  | .resumes (.saving save _) (.ok _) => some save
  | _ => none

/-- Whether the user edits the text, another file is loaded, or the buffer is closed. -/
def Act.replaces : Act → Bool
  | .edits _ _ => true
  | .resumes (.loading _ _) (.ok _) => true
  | .resumes (.openingWorkspace _) (.ok _) => true
  | _ => false

/-- A dirty buffer gets clean when a file is loaded, or when a save is done that has written its
    own text to its own file. -/
theorem Step.cleans (effected : Effected moves s) (step : Step s act t) {b b' : Buffer}
    (shown : s.session.buffer = some b) (dirty : b.dirty = true)
    (shown' : t.session.buffer = some b') (clean : b'.dirty = false) :
    (∃ path next text, act = .resumes (.loading path next) (.ok text)) ∨
    ∃ save auto, act = .resumes (.saving save auto) (.ok ()) ∧
      b.path.same save.path = true ∧ b.content = save.content ∧
      ∃ taken ∈ moves, taken.act = .proceeds ⟨.saving save auto, .landed⟩ := by
  have before : s.session.copy = some b.copy := Option.map_eq_some_iff.mpr ⟨b, shown, rfl⟩
  have after : t.session.copy = some b'.copy := Option.map_eq_some_iff.mpr ⟨b', shown', rfl⟩
  -- the two differ at least in the mark, so the cases that keep the buffer are out
  have changed : b'.copy ≠ b.copy := fun same =>
    absurd ((congrArg Copy.dirty same).symm.trans clean) (by simp [Buffer.copy, dirty])
  have copies := step.copies
  rw [after] at copies
  generalize became : some b'.copy = copy at copies
  cases copies with
  | keeps => exact absurd (Option.some.inj (became.trans before)) changed
  | edits content cursor =>
    obtain ⟨old, -, edited⟩ := Option.map_eq_some_iff.mp became.symm
    exact absurd (congrArg Copy.dirty edited) (by simp [Buffer.copy, clean])
  | turns turns =>
    cases turns with
    | keeps => exact absurd (Option.some.inj (became.trans before)) changed
    | loads path next content => exact .inl ⟨path, next, content, rfl⟩
    | leaves path => cases became
    | saves save auto =>
      rw [before, Option.map_some] at became
      by_cases own : (b.path.same save.path && b.content == save.content) = true
      · obtain ⟨same, text⟩ := Bool.and_eq_true_iff.mp own
        obtain ⟨taken, mem, marks⟩ := marks_of_save effected step same
        refine .inr ⟨save, auto, rfl, same, beq_iff_eq.mp text, taken, mem, ?_⟩
        generalize taken.act = act at marks
        cases marks
        rfl
      · have kept : b.copy.afterSave save = b.copy := if_neg own
        exact absurd (Option.some.inj (became.trans (congrArg some kept))) changed

/-- A text that is not replaced is dirty, or a save is done that has written it. -/
theorem dirty_along {content : String} {c : Copy} (run : Run Step s moves t)
    (shown : s.session.copy = some c) (text : c.content = content) (dirty : c.dirty = true)
    (kept : ∀ move ∈ moves, move.act.replaces = false) :
    ∃ c', t.session.copy = some c' ∧ c'.content = content ∧
      (c'.dirty = true ∨ ∃ move ∈ moves, ∃ save ∈ move.act.saved?,
        c'.path.same save.path = true ∧ save.content = content) := by
  induction run with
  | nil => exact ⟨c, shown, text, .inl dirty⟩
  | @snoc moves u v act earlier step inductionHypothesis =>
    obtain ⟨c', shown', text', known⟩ :=
      inductionHypothesis fun move mem => kept move (List.mem_append_left _ mem)
    have stays : act.replaces = false := kept _ List.mem_concat_self
    have grown : c'.dirty = true ∨ ∃ move ∈ moves ++ [⟨u, act, v⟩], ∃ save ∈ move.act.saved?,
        c'.path.same save.path = true ∧ save.content = content :=
      known.imp_right fun ⟨move, mem, saved⟩ => ⟨move, List.mem_append_left _ mem, saved⟩
    have copies := step.copies
    generalize v.session.copy = copy at copies
    cases copies with
    | keeps => exact ⟨c', shown', text', grown⟩
    | edits => cases stays
    | turns turns =>
      cases turns with
      | keeps => exact ⟨c', shown', text', grown⟩
      | loads => cases stays
      | leaves => cases stays
      | saves save auto =>
        rw [shown', Option.map_some]
        by_cases own : (c'.path.same save.path && c'.content == save.content) = true
        · obtain ⟨same, written⟩ := Bool.and_eq_true_iff.mp own
          refine ⟨_, rfl, by simpa [Copy.afterSave, own] using text', .inr ?_⟩
          refine ⟨_, List.mem_concat_self, save, rfl, ?_, ?_⟩
          · simpa [Copy.afterSave, own] using same
          · exact (beq_iff_eq.mp written).symm.trans text'
        · have unmoved : c'.afterSave save = c' := if_neg own
          exact ⟨c', congrArg some unmoved, text', grown⟩

/-! ## Every run -/

/-- Whatever operations overlap, and whatever comes of their writes: the flag is up exactly while a
    save is writing, and there is one at most.  A save only changes the buffer when it ends as
    saved, and a dirty buffer only gets clean by it if the buffer shows the file and the text that
    the save has written.  So an edit stays dirty until it is replaced, or a save is done that has
    written just this text. -/
theorem one_save_at_a_time {engine : Preview.Engine} {texts : Texts}
    (run : Run Step (fresh engine texts) moves s) :
    s.writing = s.session.saving.toNat ∧
    ∀ first move rest, moves = first ++ move :: rest →
      (∀ save ∈ move.act.save? move.before.session,
        Spares move.before.session save move.after.session) ∧
      (∀ b b', move.before.session.buffer = some b → b.dirty = true →
        move.after.session.buffer = some b' → b'.dirty = false →
          (∃ path next text, move.act = .resumes (.loading path next) (.ok text)) ∨
          ∃ save auto, move.act = .resumes (.saving save auto) (.ok ()) ∧
            b.path.same save.path = true ∧ b.content = save.content ∧
            ∃ taken ∈ first, taken.act = .proceeds ⟨.saving save auto, .landed⟩) ∧
      ∀ content cursor, move.act = .edits content cursor →
        move.before.session.buffer.isSome = true → (∀ later ∈ rest, later.act.replaces = false) →
          ∃ b, s.session.buffer = some b ∧ b.content = content ∧
            (b.dirty = true ∨ ∃ later ∈ rest, ∃ save ∈ later.act.saved?,
              b.path.same save.path = true ∧ save.content = content) := by
  refine ⟨writing_of_run run, fun first move rest cut => ?_⟩
  obtain ⟨earlier, step, later⟩ := run.around cut
  refine ⟨fun save saves => step.spares saves, fun b b' shown dirty shown' clean => ?_,
    fun content cursor edits opened kept => ?_⟩
  · exact step.cleans (effected_of_run rfl earlier) shown dirty shown' clean
  · obtain ⟨b, shown⟩ := Option.isSome_iff_exists.mp opened
    have edited : move.after.session.copy = some ⟨b.path, content, true⟩ := by
      rw [edits] at step
      generalize move.after = after at step
      cases step with
      | edits =>
        simp [Session.copy, Session.edit, shown, Buffer.edit, Buffer.moveCursor, Buffer.copy]
    obtain ⟨c, held, text, known⟩ := dirty_along later edited rfl rfl kept
    obtain ⟨b', shown', rfl⟩ := Option.map_eq_some_iff.mp held
    exact ⟨b', shown', text, known⟩

end Runs

attribute [local instance] pngDecoder

/-- While a save is writing "b", the text is edited to "c", and another save finds the first one
    writing.  When the write is done, the buffer is still dirty, and no save is writing. -/
theorem edit_during_save_kept : ∃ (moves : Moves) (s : SessionWithFiles),
    Run Step (fresh (.start 4) ⟨fun _ => some "a"⟩) moves s ∧ s.writing = 0 ∧
    (∃ move ∈ moves, move.after.session.saving = true ∧
      ∃ save ∈ move.act.save? move.before.session, save.2 = .ended (.saved .inProgress)) ∧
    ∃ b, s.session.buffer = some b ∧ b.content = "c" ∧ b.dirty = true := by
  let p : Path := ⟨"p.typ"⟩
  have opened := ((Run.nil.snoc
    (Step.starts (fresh (.start 4) ⟨fun _ => some "a"⟩) (.openFile p))).snoc
    (.proceeds [] ⟨.loading p .finish, .begun⟩ rfl (.reads rfl rfl))).snoc
    (.resumes [] ⟨.loading p .finish, .read "a"⟩ rfl (.read p "a"))
  have written := ((opened.snoc (.edits _ "b" 0)).snoc (.starts _ (.save true))).snoc
    (.proceeds [] ⟨.saving ⟨p, "b", true⟩ none, .begun⟩ rfl (.lands rfl))
  obtain ⟨first, saving⟩ : ∃ first, Run Step (fresh (.start 4) ⟨fun _ => some "a"⟩) first _ :=
    ⟨_, written⟩
  have saved := ((saving.snoc (.edits _ "c" 0)).snoc (.starts _ (.save false))).snoc
    (.resumes [] ⟨.saving ⟨p, "b", true⟩ none, .landed⟩ rfl (.written p "b"))
  obtain ⟨counted, moved⟩ := one_save_at_a_time saved
  obtain ⟨spares, -⟩ := moved _ _ [_] (List.append_assoc _ [_] [_])
  obtain ⟨-, -, stays⟩ := moved first _ [_, _] (by rw [List.append_assoc, List.append_assoc]; rfl)
  obtain ⟨b, shown, text, known⟩ := stays "c" 0 rfl rfl (by simp [Act.replaces])
  have free := ((spares _ rfl).flag rfl).2
  refine ⟨_, _, saved, counted, ⟨_, ?_, free, _, rfl, rfl⟩, b, shown, text, ?_⟩
  · simp
  · simpa [Act.saved?] using known

end SessionWithFiles

end LivePreview
