import LivePreview.Page.Decoder
import LivePreview.Proofs.Session.Record
import LivePreview.Proofs.Texts

/-!
# An operation by itself

Nothing comes between the steps of an operation here, while its requests may be answered in any
way.  One that fails has then done nothing that shows, and asked once more it does what it would
have done (`failure_alone`), with one exception: a main document that the backend has accepted
stays chosen if there was nothing to compile and its file cannot be read.  Choosing it once more
does nothing (`unread_main_stays`).
-/

namespace LivePreview.Session

open Preview (Cycle Note Progress)

/-- A request with its answer. -/
structure Exchange where
  request : Request
  reply : request.Reply

/-- The failure that an operation answers. -/
def Result.failure? : Result → Option Failure
  | .opened (.error f) => some f
  | .selected (.error f) => some f
  | .exported (.error f) => some f
  | _ => none

/-- A step of an operation that will not answer a failure, whatever happens to it: it is a cycle,
    a save or a click. -/
inductive Step.IsSafe : Step → Prop
  | ended {s : Session} {result : Result} (safe : result.failure? = none) :
      IsSafe (s, .ended result)
  | cycling (s : Session) (cycle : Cycle) (selected : Bool) :
      IsSafe (s, .waits (.cycling cycle selected))
  | saving (s : Session) (save : Save) (auto : Option AutoSave) :
      IsSafe (s, .waits (.saving save auto))
  | resting (s : Session) (auto : AutoSave) : IsSafe (s, .waits (.resting auto))
  | clicking (s : Session) (click : Preview.Click) : IsSafe (s, .waits (.clicking click))
  | revealing (s : Session) (path : Path) (position : Nat) :
      IsSafe (s, .waits (.loading path (.reveal position)))

theorem startCompile_isSafe (s : Session) (selected : Bool) : (s.startCompile selected).IsSafe := by
  unfold startCompile
  split
  · cases selected <;> exact .ended rfl
  · exact .cycling ..

theorem endSave_isSafe (s : Session) (auto : Option AutoSave) (outcome : SaveOutcome) :
    (s.endSave auto outcome).IsSafe := by
  cases auto with
  | none => exact .ended rfl
  | some auto => exact .resting s auto

theorem startSave_isSafe (s : Session) (explicit : Bool) (auto : Option AutoSave) :
    (s.startSave explicit auto).IsSafe := by
  have begins := s.startSave_begins explicit auto
  generalize s.startSave explicit auto = step at begins ⊢
  cases begins with
  | writes => exact .saving ..
  | busy | nothing => exact endSave_isSafe ..

theorem startRender_isSafe (s : Session) : s.startRender.IsSafe := by
  unfold startRender
  split
  · exact .ended rfl
  · exact .cycling ..

/-- A main document that was chosen is not chosen again. -/
theorem start_setMain_chosen {s : Session} {path : Path}
    (compilable : (DocumentKind.ofPath path).isCompilable) (chosen : s.main = some path) :
    (Action.setMain path).start s = (s, .ended (.selected (.ok none))) := by
  simp [Action.start, startSetMain, compilable, isMain, chosen, path.same_refl]

section Exchanges

variable [ImageDecoder]

/-- `Alone step exchanges s result`: from a step on, an operation makes these exchanges one after
    the other and ends with a result in the session `s`. -/
inductive Alone : Step → List Exchange → Session → Result → Prop
  | ended (s : Session) (result : Result) : Alone (s, .ended result) [] s result
  | waits {s t : Session} (stage : Stage) {exchanges : List Exchange} {result : Result}
      (reply : stage.request.Reply) (rest : Alone (stage.resume s reply) exchanges t result) :
      Alone (s, .waits stage) (⟨stage.request, reply⟩ :: exchanges) t result

namespace Alone

variable {step : Step} {s t : Session} {exchanges : List Exchange} {result : Result}
  {f : Failure}

theorem of_ended {outcome : Result} (alone : Alone (s, .ended outcome) exchanges t result) :
    exchanges = [] ∧ t = s ∧ result = outcome := by
  cases alone
  exact ⟨rfl, rfl, rfl⟩

theorem of_waits {stage : Stage} (alone : Alone (s, .waits stage) exchanges t result) :
    ∃ reply rest, exchanges = ⟨stage.request, reply⟩ :: rest ∧
      Alone (stage.resume s reply) rest t result := by
  cases alone with
  | waits _ reply rest => exact ⟨reply, _, rfl, rest⟩

/-! ## What is on record -/

theorem prepend (alone : Alone step exchanges t result) (notes : List Note) :
    Alone (step.prepend notes) exchanges (t.prepend notes) result := by
  induction alone with
  | ended s result => exact .ended (s.prepend notes) result
  | waits stage reply rest inductionHypothesis =>
    refine .waits stage reply ?_
    rwa [Stage.resume_prepend]

theorem of_prepend {notes : List Note} (alone : Alone (step.prepend notes) exchanges t result) :
    ∃ u, t = u.prepend notes ∧ Alone step exchanges u result := by
  generalize before : step.prepend notes = carried at alone
  -- the induction is on the exchanges from any step that carries the record
  induction alone generalizing step with
  | ended s result =>
    obtain ⟨u, progress⟩ := step
    cases before
    exact ⟨u, rfl, .ended u result⟩
  | waits stage reply rest inductionHypothesis =>
    obtain ⟨u, progress⟩ := step
    cases before
    obtain ⟨v, same, alone⟩ := inductionHypothesis (Stage.resume_prepend notes u _ reply).symm
    exact ⟨v, same, .waits stage reply alone⟩

/-- In a session that differs in nothing but the record an operation does the same. -/
theorem elsewhere {action : Action} {s' : Session} (same : s'.unrecorded = s.unrecorded)
    (alone : Alone (action.start s) exchanges t result) :
    ∃ t', Alone (action.start s') exchanges t' result ∧ t'.unrecorded = t.unrecorded := by
  rw [← s.unrecorded_prepend, Action.start_prepend] at alone
  obtain ⟨u, rfl, bare⟩ := alone.of_prepend
  have carried := bare.prepend s'.engine.notes
  rw [← same, ← Action.start_prepend, unrecorded_prepend] at carried
  exact ⟨_, carried, rfl⟩

end Alone

/-! ## Operations that do not fail -/

theorem Step.IsSafe.resume {s : Session} {stage : Stage} (safe : Step.IsSafe (s, .waits stage))
    (reply : stage.request.Reply) : (stage.resume s reply).IsSafe := by
  have resumes := stage.resumes s reply
  generalize stage.resume s reply = step at resumes ⊢
  cases resumes with
  | refused refuses =>
    cases safe with
    | revealing => cases refuses with | loading => exact .ended rfl
    | _ => cases refuses
  | recompiles | loadsMain => exact startCompile_isSafe ..
  | cyclesOn => exact .cycling ..
  | concludes cycle selected => exact .ended (by cases selected <;> rfl)
  | unwritten | written => exact endSave_isSafe ..
  | savesNext => exact startSave_isSafe ..
  | reads => exact .revealing ..
  | chooses | created | persisted => cases safe
  | _ => exact .ended rfl

theorem Alone.no_failure {step : Step} {exchanges : List Exchange} {t : Session} {result : Result}
    (alone : Alone step exchanges t result) (safe : step.IsSafe) : result.failure? = none := by
  induction alone with
  | ended s result =>
    cases safe with
    | ended safe => exact safe
  | waits stage reply rest inductionHypothesis => exact inductionHypothesis (safe.resume reply)

/-! ## Operations that fail -/

namespace Alone

variable {s t : Session} {exchanges : List Exchange} {result : Result} {f : Failure}

/-- Only a file that cannot be read fails the operation that loads it. -/
theorem of_loading {path : Path} {next : AfterLoad}
    (alone : Alone (s, .waits (.loading path next)) exchanges t result)
    (failed : result.failure? = some f) :
    ∃ e : SystemError, exchanges = [⟨.read path, .error e⟩] ∧ t = s.report (.io path e) := by
  obtain ⟨reply, rest, rfl, after⟩ := alone.of_waits
  cases reply with
  | error e =>
    obtain ⟨rfl, rfl, -⟩ := after.of_ended
    exact ⟨e, rfl, rfl⟩
  | ok content =>
    have safe : (s.afterLoad path next (.ok content)).IsSafe := by
      cases next with
      | compile => exact startCompile_isSafe (s.load path content) true
      | _ => exact .ended rfl
    rw [after.no_failure safe] at failed
    cases failed

/-- An export that fails has only reported it. -/
theorem of_exporting {main output : Path} {format : ExportFormat}
    (alone : Alone (s, .waits (.exporting main format output)) exchanges t result)
    (failed : result.failure? = some f) : t = s.report f := by
  obtain ⟨reply, rest, -, after⟩ := alone.of_waits
  cases reply with
  | error f' =>
    obtain ⟨-, rfl, rfl⟩ := after.of_ended
    rw [Option.some.inj failed]
  | ok written =>
    obtain ⟨-, -, rfl⟩ := after.of_ended
    cases failed

theorem of_export {format : ExportFormat} {output : Path}
    (alone : Alone ((Action.export format output).start s) exchanges t result)
    (failed : result.failure? = some f) : t = s.report f := by
  have starts := (Action.export format output).starts s
  generalize (Action.export format output).start s = step at starts alone
  cases starts with
  | nothingToExport =>
    obtain ⟨-, rfl, rfl⟩ := alone.of_ended
    rw [← Option.some.inj failed]
  | persists =>
    obtain ⟨reply, rest, -, after⟩ := alone.of_waits
    cases reply with
    | error f' =>
      obtain ⟨-, rfl, rfl⟩ := after.of_ended
      rw [Option.some.inj failed]
    | ok done => exact after.of_exporting failed
  | exports => exact alone.of_exporting failed

end Alone

/-- How a failed choice of a main document ends: nothing is chosen, or the file that was to be
    compiled cannot be read. -/
theorem Alone.of_setMain {s t : Session} {path : Path} {exchanges : List Exchange}
    {result : Result} {f : Failure}
    (alone : Alone ((Action.setMain path).start s) exchanges t result)
    (failed : result.failure? = some f) :
    t = s.report f ∨ (DocumentKind.ofPath path).isCompilable ∧ s.buffer = none ∧
      ∃ e : SystemError,
        exchanges = [⟨.call (.setMainDocument path), .ok ()⟩, ⟨.read path, .error e⟩] ∧
          t = (s.choose path).report (.io path e) := by
  have starts := (Action.setMain path).starts s
  generalize (Action.setMain path).start s = step at starts alone
  cases starts with
  | notCompilable | alreadyMain =>
    obtain ⟨-, -, rfl⟩ := alone.of_ended
    cases failed
  | selects path compilable =>
    obtain ⟨reply, rest, rfl, after⟩ := alone.of_waits
    have resumes := (Stage.selecting path).resumes s reply
    generalize (Stage.selecting path).resume s reply = step at resumes after
    cases resumes with
    | refused refuses =>
      cases refuses
      obtain ⟨-, rfl, rfl⟩ := after.of_ended
      exact .inl (by rw [Option.some.inj failed])
    | chooses path closed =>
      obtain ⟨e, rfl, rfl⟩ := after.of_loading failed
      exact .inr ⟨compilable, closed, e, rfl, rfl⟩
    | recompiles =>
      rw [after.no_failure (startCompile_isSafe ..)] at failed
      cases failed

/-- An operation by itself that fails has changed nothing but the record, and asked once more it
    does whatever it would have done with these answers at first.  The exception is a main
    document that the backend has accepted while nothing is open, and whose file cannot be read:
    it is chosen then, the preview is that of a new main document, and choosing it once more does
    nothing. -/
theorem failure_alone {s t : Session} {action : Action} {exchanges : List Exchange}
    {result : Result} {f : Failure} (alone : Alone (action.start s) exchanges t result)
    (failed : result.failure? = some f) :
    (t.unrecorded = s.unrecorded ∧
      ∀ {exchanges u result}, Alone (action.start s) exchanges u result →
        ∃ u', Alone (action.start t) exchanges u' result ∧ u'.unrecorded = u.unrecorded) ∨
    ∃ path e, action = .setMain path ∧ s.buffer = none ∧
      exchanges = [⟨.call (.setMainDocument path), .ok ()⟩, ⟨.read path, .error e⟩] ∧
      t.unrecorded = (s.choose path).unrecorded ∧
      action.start t = (t, .ended (.selected (.ok none))) := by
  suffices ended : t.unrecorded = s.unrecorded ∨ ∃ path e, action = .setMain path ∧
      s.buffer = none ∧
      exchanges = [⟨.call (.setMainDocument path), .ok ()⟩, ⟨.read path, .error e⟩] ∧
      t.unrecorded = (s.choose path).unrecorded ∧
      action.start t = (t, .ended (.selected (.ok none))) from
    ended.imp_left fun same => ⟨same, fun again => again.elsewhere same⟩
  have never : (action.start s).IsSafe → False := fun safe => by
    rw [alone.no_failure safe] at failed
    cases failed
  cases action with
  | openWorkspace path =>
    obtain ⟨reply, rest, -, after⟩ := alone.of_waits
    cases reply with
    | error f' =>
      obtain ⟨-, rfl, -⟩ := after.of_ended
      exact .inl rfl
    | ok done =>
      obtain ⟨-, -, rfl⟩ := after.of_ended
      cases failed
  | setMain path =>
    rcases alone.of_setMain failed with rfl | ⟨compilable, closed, e, rfl, rfl⟩
    · exact .inl rfl
    · exact .inr ⟨path, e, rfl, closed, rfl, rfl, start_setMain_chosen compilable rfl⟩
  | openFile path =>
    obtain ⟨e, -, rfl⟩ := alone.of_loading failed
    exact .inl rfl
  | createFile path text =>
    obtain ⟨reply, rest, -, after⟩ := alone.of_waits
    cases reply with
    | error f' =>
      obtain ⟨-, rfl, -⟩ := after.of_ended
      exact .inl rfl
    | ok done =>
      obtain ⟨e, -, rfl⟩ := after.of_loading failed
      exact .inl rfl
  | «export» format output =>
    rw [alone.of_export failed]
    exact .inl rfl
  | compile => exact (never (startCompile_isSafe ..)).elim
  | render => exact (never (startRender_isSafe ..)).elim
  | save explicit => exact (never (startSave_isSafe ..)).elim
  | autoSave interval stop => exact (never (.resting ..)).elim
  | click page x y => exact (never (.clicking ..)).elim

end Exchanges

attribute [local instance] pngDecoder

/-- A file is created and then cannot be read, while another one is being edited.  The session is
    as before, and creating the file is all there is to do again. -/
theorem created_file_unread : ∃ (s t : Session) (f : Failure),
    s.isDirty ∧ (let action := Action.createFile ⟨"b.typ"⟩ "b"
      Alone (action.start s) [⟨.call (.createFile ⟨"b.typ"⟩ "b"), .ok ()⟩,
        ⟨.read ⟨"b.typ"⟩, .error .notFound⟩] t (.opened (.error f)) ∧
      t.unrecorded = s.unrecorded ∧
      ∀ {exchanges u result}, Alone (action.start s) exchanges u result →
        ∃ u', Alone (action.start t) exchanges u' result ∧ u'.unrecorded = u.unrecorded) := by
  let s : Session := ⟨.start 4, none, none, some ⟨⟨"a.typ"⟩, "a", true, 0⟩, false⟩
  have alone : Alone ((Action.createFile ⟨"b.typ"⟩ "b").start s) _ _ _ :=
    .waits (.creating ⟨"b.typ"⟩ "b") (.ok ())
      (.waits (.loading ⟨"b.typ"⟩ .finish) (.error .notFound) (.ended _ _))
  rcases failure_alone alone rfl with again | ⟨path, e, other, -⟩
  · exact ⟨s, _, _, rfl, alone, again⟩
  · cases other

/-- Whether two sessions have the same files, buffer and preview. -/
structure LooksAs (s t : Session) : Prop where
  root : s.root = t.root
  main : s.main = t.main
  buffer : s.buffer = t.buffer
  pages : s.engine.state.pages = t.engine.state.pages
  diagnostics : s.engine.state.diagnostics = t.engine.state.diagnostics
  markers : s.engine.state.markers = t.engine.state.markers
  position : s.engine.state.position = t.engine.state.position

/-- Nothing is open, and the main document that is chosen cannot be read.  The failure is
    answered, the document stays chosen, and the choice cannot be made again. -/
theorem unread_main_stays : ∃ exchanges t f,
    Alone ((Action.setMain ⟨"main.typ"⟩).start (.start (.start 4))) exchanges t
      (.selected (.error f)) ∧
    ¬ t.LooksAs (.start (.start 4)) ∧
    (Action.setMain ⟨"main.typ"⟩).start t = (t, .ended (.selected (.ok none))) := by
  let path : Path := ⟨"main.typ"⟩
  have compilable : (DocumentKind.ofPath path).isCompilable := by decide +kernel
  have failing : Alone (.start (.start 4), .waits (.selecting path))
      [⟨.call (.setMainDocument path), .ok ()⟩, ⟨.read path, .error .notFound⟩]
      (((Session.start (.start 4)).choose path).report (.io path .notFound))
      (.selected (.error (.io path .notFound))) :=
    .waits (.selecting path) (.ok ())
      (.waits (.loading path .compile) (.error .notFound) (.ended _ _))
  have begins : (Action.setMain path).start (.start (.start 4)) =
      (.start (.start 4), .waits (.selecting path)) := by
    simp [Action.start, startSetMain, compilable, isMain, Session.start]
  refine ⟨_, _, _, begins ▸ failing, ?_, start_setMain_chosen compilable rfl⟩
  rintro ⟨-, main, -⟩
  cases main

end LivePreview.Session
