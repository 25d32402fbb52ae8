import LivePreview.Page.Decoder
import LivePreview.Proofs.Preview.Outlook
import LivePreview.Proofs.Session.BusySession

/-!
# What a call tells of its failure

A call that fails notifies one error, with the failure that it answers, and any other call
notifies none: neither one that succeeds or has nothing to do, nor a cycle that is superseded,
nor a click that a newer one has overtaken (`errors_of_call`).  This holds of all calls but
automatic saves, which may fail many times, and whatever happens between the moves of a call.
-/

namespace LivePreview

open Preview (Activity Click Cycle Engine Outcome Progress)

namespace Preview.Engine

/-- The errors that were notified so far. -/
def errors (e : Engine) : List Event :=
  e.events.filter Event.isError

theorem errors_eq (e : Engine) : e.errors = e.outlook.messages.filter Event.isError := by
  refine (e.filter_messages fun event error => ?_).symm
  cases event <;> first | rfl | cases error

theorem errors_of_outlook {e e' : Engine} (same : e'.outlook = e.outlook) :
    e'.errors = e.errors := by
  rw [errors_eq, errors_eq, same]

@[simp] theorem emit_errors (e : Engine) (event : Event) :
    (e.emit event).errors = e.errors ++ [event].filter Event.isError := by
  rw [errors, emit_events, List.filter_append]
  rfl

@[simp] theorem say_errors (e : Engine) (lines : List Console.LogLine) :
    (e.say lines).errors = e.errors :=
  errors_of_outlook (e.say_outlook lines)

@[simp] theorem startCompile_errors (e : Engine) (source : Snapshot) :
    (e.startCompile source).1.errors = e.errors :=
  errors_of_outlook (e.startCompile_outlook source)

@[simp] theorem startRender_errors (e : Engine) (source : Snapshot)
    (compile : Option Preview.Ticket) :
    (e.startRender source compile).1.errors = e.errors :=
  errors_of_outlook (e.startRender_outlook source compile)

@[simp] theorem reset_errors (e : Engine) : e.reset.errors = e.errors := by
  rw [errors_eq, errors_eq, reset_outlook]

@[simp] theorem follow_errors (e : Engine) (jump : Jump) : (e.follow jump).errors = e.errors := by
  cases jump <;> simp [follow, Event.isError, errors]

end Preview.Engine

/-- A click that leads nowhere was overtaken, or it has failed and this is notified. -/
theorem Preview.Click.resume_errors (c : Click) (e : Engine) (reply : Except Failure Jump) :
    (c.resume e reply).1.errors = e.errors ∧
        ((c.resume e reply).2 = none → c.isStale e = true) ∨
      (c.resume e reply).2 = none ∧ c.isStale e = false ∧
        ∃ f : Failure, (c.resume e reply).1.errors = e.errors ++ [.notify .error f.message] := by
  cases stale : c.isStale e with
  | true => exact .inl ⟨by simp [resume, stale], fun _ => rfl⟩
  | false =>
    simp only [resume, stale, Bool.false_eq_true, if_false]
    cases checkJump reply with
    | error f => exact .inr ⟨rfl, trivial, f, by simp [Event.isError]⟩
    | ok jump => exact .inl ⟨by simp, fun ends => by cases ends⟩

theorem Preview.Click.errors_of_leads {c : Click} {e e' : Engine} {reply : Except Failure Jump}
    {jump : Jump} (leads : c.resume e reply = (e', some jump)) : e'.errors = e.errors := by
  have tells := c.resume_errors e reply
  rw [leads] at tells
  obtain ⟨same, -⟩ | ⟨none, -⟩ := tells
  · exact same
  · cases none

namespace Session

/-- The failures that a result can tell of: the one it answers, or one of the kind it answers.
    Of a click nothing is answered. -/
inductive Result.TellsOf : Result → Failure → Prop
  | opened (f : Failure) : TellsOf (.opened (.error f)) f
  | selected (f : Failure) : TellsOf (.selected (.error f)) f
  | compiled (f : Failure) : TellsOf (.selected (.ok (some (.failed f.kind)))) f
  | cycled (f : Failure) : TellsOf (.cycled (some (.failed f.kind))) f
  | saved (f : Failure) : TellsOf (.saved (.failed f.kind)) f
  | exported (f : Failure) : TellsOf (.exported (.error f)) f
  | clicked (f : Failure) : TellsOf (.clicked none) f

/-- Whether a result tells of a failure. -/
def Result.isFailure : Result → Bool
  | .opened (.error _) => true
  | .selected (.error _) => true
  | .selected (.ok (some (.failed _))) => true
  | .cycled (some (.failed _)) => true
  | .saved (.failed _) => true
  | .exported (.error _) => true
  | .clicked none => true
  | _ => false

theorem Result.TellsOf.isFailure {result : Result} {f : Failure} (tells : result.TellsOf f) :
    result.isFailure = true := by
  cases tells <;> rfl

/-- Whether a stage waits for a click while a newer one was made. -/
def Stage.isOvertaken (s : Session) : Stage → Bool
  | .clicking click => click.isStale s.engine
  | _ => false

/-- What goes on with automatic saves after a stage. -/
def Stage.auto? : Stage → Option AutoSave
  | .saving _ auto => auto
  | .resting auto => some auto
  | _ => none

theorem Serves.auto? {action : Action} {stage : Stage} (serves : Serves action stage)
    (single : ∀ interval stop, action ≠ .autoSave interval stop) : stage.auto? = none := by
  cases serves with
  | autoSaving interval stop => exact absurd rfl (single interval stop)
  | resting interval stop => exact absurd rfl (single interval stop)
  | _ => rfl

/-- `s.Reports overtaken step`: a step from the session `s` notifies an error if it fails its
    call, and none otherwise. -/
inductive Reports (s : Session) (overtaken : Bool) : Step → Prop
  | quiet {t : Session} {progress : Progress Stage Result}
      (same : t.engine.errors = s.engine.errors)
      (fine : ∀ result f, progress = .ended result → result.TellsOf f → overtaken = true) :
      Reports s overtaken (t, progress)
  | fails {t : Session} {result : Result} (f : Failure) (tells : result.TellsOf f)
      (told : t.engine.errors = s.engine.errors ++ [.notify .error f.message])
      (wanted : overtaken = false) : Reports s overtaken (t, .ended result)

variable {s t : Session} {overtaken : Bool}

theorem Reports.goesOn {stage : Stage} (same : t.engine.errors = s.engine.errors) :
    Reports s overtaken (t, .waits stage) :=
  .quiet same fun _ _ ended => nomatch ended

theorem Reports.ends {result : Result} (same : t.engine.errors = s.engine.errors)
    (fine : result.isFailure = false) : Reports s overtaken (t, .ended result) := by
  refine .quiet same fun result' f ended tells => ?_
  obtain rfl := Progress.ended.inj ended
  rw [tells.isFailure] at fine
  cases fine

theorem Reports.reported {result : Result} {f : Failure}
    (same : t.engine.errors = s.engine.errors) (tells : result.TellsOf f) :
    Reports s false (t.report f, .ended result) :=
  .fails f tells (by simp [same, Event.isError]) rfl

theorem startCompile_reports (same : t.engine.errors = s.engine.errors) (selected : Bool) :
    Reports s overtaken (t.startCompile selected) := by
  unfold startCompile
  split
  · exact .ends same (by cases selected <;> rfl)
  · exact .goesOn ((Engine.startCompile_errors _ _).trans same)

theorem startSave_reports (s : Session) (explicit : Bool) :
    Reports s overtaken (s.startSave explicit none) := by
  have begins := s.startSave_begins explicit none
  generalize s.startSave explicit none = step at begins ⊢
  cases begins with
  | busy => exact .ends (by simp) rfl
  | writes => exact .goesOn rfl
  | nothing => exact .ends (by cases explicit <;> simp [Event.isError]) rfl

theorem Action.start_reports (s : Session) {action : Action}
    (single : ∀ interval stop, action ≠ .autoSave interval stop) :
    Reports s false (action.start s) := by
  have starts := action.starts s
  generalize action.start s = step at starts ⊢
  cases starts with
  | notCompilable => exact .ends (by simp [Event.isError]) rfl
  | alreadyMain | nothingToRender => exact .ends rfl rfl
  | compiles => exact startCompile_reports rfl false
  | renders => exact .goesOn (by simp)
  | saves explicit => exact startSave_reports s explicit
  | autoSaves interval stop => exact absurd rfl (single interval stop)
  | nothingToExport => exact .reported rfl (.exported _)
  | _ => exact .goesOn rfl

/-! ## Replies -/

theorem reveal_errors (s : Session) (path : Path) (position : Nat) :
    (s.reveal path position).engine.errors = s.engine.errors := by
  unfold reveal
  split
  · rfl
  · simp [Event.isError]

theorem Stage.Refuses.tells {stage : Stage} {reply : stage.request.Reply} {f : Failure}
    {result : Result} (refuses : stage.Refuses reply f result) : result.TellsOf f := by
  cases refuses with
  | openingWorkspace | creating => exact .opened f
  | selecting => exact .selected f
  | loading path next =>
    cases next with
    | finish => exact .opened _
    | compile => exact .selected _
    | reveal => exact .clicked _
  | persisting | exporting => exact .exported f

theorem Stage.Refuses.isOvertaken {stage : Stage} {reply : stage.request.Reply} {f : Failure}
    {result : Result} (refuses : stage.Refuses reply f result) : stage.isOvertaken s = false := by
  cases refuses <;> rfl

/-- The cycle of a call: a failure is notified, and nothing else is. -/
theorem ended_reports {engine : Engine} {outcome : Outcome}
    (concludes : Cycle.Concludes s.engine (engine, .ended outcome)) (selected : Bool) :
    Reports s false ({ s with engine }, .ended (cycleResult selected outcome)) := by
  cases concludes with
  | dropped same => exact .ends (Engine.errors_of_outlook same) (by cases selected <;> rfl)
  | fails f outlook =>
    refine .fails f ?_ ?_ rfl
    · cases selected
      · exact .cycled f
      · exact .compiled f
    · simp [Engine.errors_eq, outlook, Preview.Outlook.failed, Event.isError]
  | renders pages p told positions outlook =>
    refine .ends ?_ ?_
    · have none : told.filter Event.isError = [] := by
        refine List.filter_eq_nil_iff.mpr fun event mem => ?_
        rw [positions event mem]
        simp [Event.isError]
      simp [Engine.errors_eq, outlook, none]
    · cases selected <;> rfl

theorem Stage.resume_reports [ImageDecoder] (s : Session) {stage : Stage}
    (reply : stage.request.Reply) (single : stage.auto? = none) :
    Reports s (stage.isOvertaken s) (stage.resume s reply) := by
  have resumes := stage.resumes s reply
  generalize stage.resume s reply = step at resumes ⊢
  cases resumes with
  | refused refuses =>
    rw [refuses.isOvertaken]
    exact .reported rfl refuses.tells
  | enters => exact .ends (by simp [enter]) rfl
  | chooses => exact .goesOn (by simp [choose])
  | recompiles => exact startCompile_reports (by simp [choose]) true
  | loads => exact .ends (by simp) rfl
  | loadsMain => exact startCompile_reports (by simp) true
  | loadsTarget => exact .ends ((reveal_errors ..).trans (by simp)) rfl
  | created => exact .goesOn (by simp [Event.isError])
  | cyclesOn cycle selected reply resumed =>
    have concludes := cycle.resume_concludes s.engine reply
    rw [resumed] at concludes
    cases concludes with
    | goesOn same => exact .goesOn (Engine.errors_of_outlook same)
  | concludes cycle selected reply resumed =>
    exact ended_reports (resumed ▸ cycle.resume_concludes s.engine reply) selected
  | unwritten save auto e =>
    obtain rfl : auto = none := single
    exact .reported (t := { s with saving := false }) rfl (.saved _)
  | written save auto =>
    obtain rfl : auto = none := single
    refine .ends ?_ rfl
    simp only [afterWrite]
    split <;> simp [Event.isError]
  | savesNext | stops => cases single
  | persisted => exact .goesOn rfl
  | exported => exact .ends (by simp [Event.isError]) rfl
  | reveals click reply leads =>
    exact .ends ((reveal_errors ..).trans (Click.errors_of_leads leads)) rfl
  | reads click reply leads => exact .goesOn (Click.errors_of_leads leads)
  | clicked click reply resumed =>
    have tells := click.resume_errors s.engine reply
    rw [resumed] at tells
    obtain ⟨same, overtaken⟩ | ⟨rfl, wanted, f, told⟩ := tells
    · refine .quiet same fun result f ended tells => ?_
      cases ended
      cases tells
      exact overtaken rfl
    · exact .fails f (.clicked f) told wanted

end Session

namespace BusySession

open Session (Action Reports Result Stage)

variable {session : Session} {s t : BusySession} {act : Act} {moves : List (Move BusySession Act)}

/-- The errors that are notified in a move. -/
def errorsOf (move : Move BusySession Act) : List Event :=
  move.after.session.engine.errors.drop move.before.session.engine.errors.length

def Act.isOvertaken (s : BusySession) : Act → Bool
  | .resumes call _ _ => call.stage.isOvertaken s.session
  | _ => false

/-- Whether a call fails with a result in one of its own moves.  A click that a newer one has
    overtaken is not followed, and has not failed. -/
def Fails (own : List (Move BusySession Act)) (result : Result) : Prop :=
  ∃ move ∈ own, move.act.result? = some result ∧ (∃ f, result.TellsOf f) ∧
    move.act.isOvertaken move.before = false

/-- What a move notifies: the failure that it answers, or nothing. -/
inductive Notifies (move : Move BusySession Act) : Prop
  | nothing (none : errorsOf move = []) (fine : ∀ result, ¬ Fails [move] result)
  | failure (result : Result) (f : Failure) (answers : move.act.result? = some result)
      (tells : result.TellsOf f) (told : errorsOf move = [.notify .error f.message])
      (wanted : move.act.isOvertaken move.before = false)

theorem notifies_of_reports {progress : Progress Stage Result}
    (reports : Reports s.session (act.isOvertaken s) (t.session, progress))
    (answers : ∀ result, act.result? = some result ↔ progress = .ended result) :
    Notifies ⟨s, act, t⟩ := by
  generalize stepped : (t.session, progress) = step at reports
  cases reports with
  | @quiet session' _ same fine =>
    cases stepped
    refine .nothing (by simp [errorsOf, same]) ?_
    rintro result ⟨move, mem, ends, ⟨f, tells⟩, wanted⟩
    obtain rfl := List.mem_singleton.mp mem
    have overtaken := fine result f ((answers result).mp ends) tells
    rw [wanted] at overtaken
    cases overtaken
  | fails f tells told wanted =>
    cases stepped
    exact .failure _ f ((answers _).mpr rfl) tells (by simp [errorsOf, told]) wanted

section Runs

variable [ImageDecoder]

/-- No move of a call but of automatic saves notifies anything but its failure. -/
theorem notifies_of_run (run : Run Step (idle session) moves s) {number : Nat}
    (single : ∀ move ∈ moves, ∀ interval stop progress,
      move.act ≠ .starts number (.autoSave interval stop) progress)
    {move : Move BusySession Act} (mem : move ∈ movesOf number moves) : Notifies move := by
  simp only [movesOf, List.mem_filter, decide_eq_true_eq] at mem
  obtain ⟨mem, mine⟩ := mem
  obtain ⟨u, act, v⟩ := move
  obtain ⟨first, rest, cut⟩ := List.append_of_mem mem
  obtain ⟨earlier, step, -⟩ := run.around cut
  dsimp only at earlier step mine
  cases step with
  | starts action =>
    obtain rfl := Option.some.inj mine
    refine notifies_of_reports (Action.start_reports u.session ?_) fun result => Act.result?_starts
    rintro interval stop rfl
    exact single _ mem interval stop _ rfl
  | edits | moves => cases mine
  | resumes before after call waits reply =>
    obtain rfl := Option.some.inj mine
    have ongoing : call ∈ u.ongoing := waits ▸ List.mem_append_cons_self
    have serves := (orderly_of_run earlier).serves call ongoing
    refine notifies_of_reports (Stage.resume_reports u.session reply (serves.auto? ?_))
      fun result => Act.result?_resumes
    rintro interval stop same
    obtain ⟨u', progress, v', made⟩ := made_of_ongoing earlier ongoing
    rw [same] at made
    exact single _ (cut ▸ List.mem_append_left _ made) interval stop progress rfl

/-- Of a call but of automatic saves, whatever other calls do between its moves: if it fails, one
    error is notified in all of its moves, with the failure that its result tells of; otherwise
    none is. -/
theorem errors_of_call (run : Run Step (idle session) moves s) {number : Nat}
    (single : ∀ move ∈ moves, ∀ interval stop progress,
      move.act ≠ .starts number (.autoSave interval stop) progress) :
    (∀ result, Fails (movesOf number moves) result → ∃ f : Failure, result.TellsOf f ∧
      (movesOf number moves).flatMap errorsOf = [.notify .error f.message]) ∧
    ((∀ result, ¬ Fails (movesOf number moves) result) →
      (movesOf number moves).flatMap errorsOf = []) := by
  have notifies : ∀ {move}, move ∈ movesOf number moves → Notifies move :=
    notifies_of_run run single
  have course := course_of_run run number
  have quiet : ∀ move ∈ movesOf number moves, move.act.result? = none → errorsOf move = [] := by
    intro move mem goesOn
    cases notifies mem with
    | nothing none => exact none
    | failure result f answers => rw [goesOn] at answers; cases answers
  generalize movesOf number moves = own at notifies course quiet
  have unfailing : ∀ own : List (Move BusySession Act), (∀ move ∈ own, move.act.result? = none) →
      ∀ result, ¬ Fails own result := by
    rintro own goOn result ⟨move, mem, ends, -⟩
    rw [goOn move mem] at ends
    cases ends
  have silent : ∀ earlier ⊆ own, (∀ move ∈ earlier, move.act.result? = none) →
      earlier.flatMap errorsOf = [] :=
    fun earlier sub goOn => List.flatMap_eq_nil_iff.mpr fun move mem =>
      quiet move (sub mem) (goOn move mem)
  cases course with
  | ahead => exact ⟨fun result fails => by simp [Fails] at fails, fun _ => rfl⟩
  | underway _ mem same goOn =>
    exact ⟨fun result fails => absurd fails (unfailing _ goOn result),
      fun _ => silent _ (List.Subset.refl _) goOn⟩
  | @finished earlier last old absent goOn ended =>
    rw [List.flatMap_append, silent earlier (List.subset_append_left ..) goOn, List.nil_append,
      List.flatMap_singleton]
    have atEnd : ∀ result, Fails (earlier ++ [last]) result → Fails [last] result := by
      rintro result ⟨move, mem, ends, fails⟩
      rcases List.mem_append.mp mem with before | atLast
      · rw [goOn move before] at ends
        cases ends
      · exact ⟨move, atLast, ends, fails⟩
    have member : last ∈ earlier ++ [last] := List.mem_concat_self
    cases notifies member with
    | nothing none fine =>
      exact ⟨fun result fails => absurd (atEnd result fails) (fine result), fun _ => none⟩
    | failure result f answers tells told wanted =>
      refine ⟨fun other fails => ?_, fun none => ?_⟩
      · obtain ⟨move, mem, ends, -⟩ := atEnd other fails
        obtain rfl := List.mem_singleton.mp mem
        obtain rfl := Option.some.inj (answers.symm.trans ends)
        exact ⟨f, tells, told⟩
      · exact absurd ⟨last, member, answers, ⟨f, tells⟩, wanted⟩ (none result)

end Runs

attribute [local instance] pngDecoder

/-- Two clicks overlap.  The older one is answered too late, and the file that the newer one leads
    to cannot be read: this is the one error. -/
theorem unread_file_notified_once : ∃ moves s, Run Step (idle (.start (.start 4))) moves s ∧
    (∀ move ∈ moves, ∀ interval stop progress,
      move.act ≠ .starts 1 (.autoSave interval stop) progress) ∧
    Fails (movesOf 1 moves) (.clicked none) ∧
    ∃ f : Failure, (Result.clicked none).TellsOf f ∧
      (movesOf 1 moves).flatMap errorsOf = [.notify .error f.message] := by
  let path : Path := ⟨"b.typ"⟩
  have nothing : Run Step (idle (.start (.start 4))) [] _ := .nil
  have clicked := (nothing.snoc (.starts _ (.click 0 1 1))).snoc (.starts _ (.click 0 2 2))
  have overtaken := clicked.snoc
    (.resumes [] _ ⟨0, .click 0 1 1, .clicking ⟨⟨1⟩, "", 0, 1, 1⟩⟩ rfl (.ok .nowhere))
  have followed := overtaken.snoc
    (.resumes [] _ ⟨1, .click 0 2 2, .clicking ⟨⟨2⟩, "", 0, 2, 2⟩⟩ rfl
      (.ok (.file path 3)))
  have unread := followed.snoc
    (.resumes [] _ ⟨1, .click 0 2 2, .loading path (.reveal 3)⟩ rfl (.error .notFound))
  obtain ⟨moves, s, run, acts, fails⟩ : ∃ moves s, Run Step (idle (.start (.start 4))) moves s ∧
      moves.map Move.act = [.starts 0 (.click 0 1 1) (.waits (.clicking ⟨⟨1⟩, "", 0, 1, 1⟩)),
        .starts 1 (.click 0 2 2) (.waits (.clicking ⟨⟨2⟩, "", 0, 2, 2⟩)),
        .resumes ⟨0, .click 0 1 1, .clicking ⟨⟨1⟩, "", 0, 1, 1⟩⟩ (.ok .nowhere)
          (.ended (.clicked none)),
        .resumes ⟨1, .click 0 2 2, .clicking ⟨⟨2⟩, "", 0, 2, 2⟩⟩ (.ok (.file path 3))
          (.waits (.loading path (.reveal 3))),
        .resumes ⟨1, .click 0 2 2, .loading path (.reveal 3)⟩ (.error .notFound)
          (.ended (.clicked none))] ∧
      Fails (movesOf 1 moves) (.clicked none) :=
    ⟨_, _, unread, rfl, _, List.mem_of_getElem? (i := 2) rfl, rfl,
      ⟨.io path .notFound, .clicked _⟩, rfl⟩
  have single : ∀ move ∈ moves, ∀ interval stop progress,
      move.act ≠ .starts 1 (.autoSave interval stop) progress := by
    intro move mem interval stop progress same
    have known := List.mem_map_of_mem (f := Move.act) mem
    rw [acts, same] at known
    simp at known
  exact ⟨moves, s, run, single, fails, (errors_of_call run single).1 _ fails⟩

end BusySession

end LivePreview
