import LivePreview.Page.Decoder
import LivePreview.Proofs.Preview.TicketOrder
import LivePreview.Proofs.Session.BusySession
import LivePreview.Proofs.Texts
import LivePreview.Toy.Layout
import Mathlib.Data.List.Sort

/-!
# Which main document is chosen

Selections carry no tickets, so what counts is when they are answered: the main document is the
one whose selection was answered last, and at the backend it is the one whose selection took
effect last.  If selections are settled in the order in which they were made, and take effect in
this order, then both are that of the last one, and all pages that are shown were rendered since
its reset (`last_selection_chosen`).  A selection that is answered later than one made after it
replaces that one (`late_selection_stays`).
-/

namespace LivePreview

open Preview (Activity Counters Decodes Engine Holds Progress decodes_of_mem inPlace)
open RenderCache (DecodedFrom)
open Session (Action Result Stage)

namespace Session

variable (s : Session)

/-! ## The main document of a session -/

@[simp] theorem startCompile_main (selected : Bool) :
    (s.startCompile selected).1.main = s.main := by
  unfold startCompile
  split <;> rfl

@[simp] theorem startSave_main (explicit : Bool) (auto : Option AutoSave) :
    (s.startSave explicit auto).1.main = s.main := by
  rw [startSave_session]
  split
  · rfl
  · split
    · rfl
    · split <;> rfl

theorem Action.start_main (action : Action) : (action.start s).1.main = s.main := by
  have starts := action.starts s
  generalize action.start s = step at starts ⊢
  cases starts with
  | compiles => exact startCompile_main ..
  | saves => exact startSave_main ..
  | _ => rfl

@[simp] theorem reveal_main (path : Path) (position : Nat) :
    (s.reveal path position).main = s.main := by
  unfold reveal
  split <;> rfl

/-- The stages whose answer can change the main document. -/
def Stage.chooses : Stage → Bool
  | .openingWorkspace _ => true
  | .selecting _ => true
  | _ => false

/-- What an answer makes of the main document. -/
inductive Elects : (stage : Stage) → stage.request.Reply → Option Path → Prop
  | keeps (stage : Stage) (reply : stage.request.Reply) (other : stage.chooses = false) :
      Elects stage reply s.main
  | refuses (path : Path) (f : Failure) : Elects (.selecting path) (.error f) s.main
  | selects (path : Path) : Elects (.selecting path) (.ok ()) (some path)
  | leaves (path : Path) (reply : Except Failure Unit) (main : Option Path) :
      Elects (.openingWorkspace path) reply main

theorem Stage.resume_elects [ImageDecoder] (stage : Stage) (reply : stage.request.Reply) :
    s.Elects stage reply (stage.resume s reply).1.main := by
  have resumes := stage.resumes s reply
  generalize stage.resume s reply = step at resumes ⊢
  cases resumes with
  | refused refuses =>
    cases refuses with
    | openingWorkspace path => exact .leaves path _ _
    | selecting path => exact .refuses path _
    | _ => exact .keeps _ _ rfl
  | enters path => exact .leaves path (.ok ()) none
  | chooses path => exact .selects path
  | recompiles path =>
    rw [startCompile_main]
    exact .selects path
  | loadsMain path content =>
    rw [startCompile_main]
    exact .keeps _ _ rfl
  | unwritten | written =>
    rw [endSave_session]
    exact .keeps _ _ rfl
  | savesNext =>
    rw [startSave_main]
    exact .keeps _ _ rfl
  | loadsTarget | reveals =>
    rw [reveal_main]
    exact .keeps _ _ rfl
  | _ => exact .keeps _ _ rfl

/-- A selection that the backend has accepted leaves nothing of what was shown. -/
theorem afterSelect_holds {P : PageKey → PageImage → Prop} (path : Path) :
    Holds P (s.afterSelect path (.ok ())).1.engine.display := by
  have chosen : Holds P (s.choose path).engine.display := by
    rw [choose, Engine.say_display]
    exact s.engine.reset_holds
  rw [afterSelect_ok]
  split
  · exact chosen
  · unfold startCompile
    split
    · exact chosen
    · rw [Engine.startCompile_display]
      exact chosen

theorem afterSelect_before (path : Path) :
    s.engine.reset.counters.Before (s.afterSelect path (.ok ())).1.engine.counters := by
  have chosen : s.engine.reset.counters.Before (s.choose path).engine.counters := by
    rw [choose, Engine.say_counters]
    exact .refl _
  rw [afterSelect_ok]
  split
  · exact chosen
  · unfold startCompile
    split
    · exact chosen
    · exact chosen.trans ((Preview.Demand.compile _).start_before _)

end Session

namespace BusySession

variable {session : Session} {s t : BusySession} {act : Act} {moves : List (Move BusySession Act)}

/-! ## Selections -/

/-- A selection, by the number of its call. -/
structure Choice where
  number : Nat
  path : Path
  deriving DecidableEq

/-- The order in which selections are made. -/
def Choice.Before (choice later : Choice) : Prop :=
  choice.number < later.number

instance : Std.Irrefl Choice.Before :=
  ⟨fun choice => Nat.lt_irrefl choice.number⟩

instance : Std.Antisymm Choice.Before :=
  ⟨fun _ _ first next => absurd next (Nat.lt_asymm first)⟩

/-- The selection that starts, of a document that can be compiled. -/
def Act.asked? : Act → Option Choice
  | .starts number (.setMain path) _ =>
    if (DocumentKind.ofPath path).isCompilable then some ⟨number, path⟩ else none
  | _ => none

/-- The selection that finds its document chosen already. -/
def Act.skipped? : Act → Option Choice
  | .starts number (.setMain path) (.ended _) =>
    if (DocumentKind.ofPath path).isCompilable then some ⟨number, path⟩ else none
  | _ => none

/-- The selection that is answered with success. -/
def Act.selected? : Act → Option Choice
  | .resumes ⟨number, _, .selecting path⟩ (.ok _) _ => some ⟨number, path⟩
  | _ => none

/-- The selection that is answered with a failure. -/
def Act.refused? : Act → Option Choice
  | .resumes ⟨number, _, .selecting path⟩ (.error _) _ => some ⟨number, path⟩
  | _ => none

/-- The selection that is over. -/
def Act.settled? (act : Act) : Option Choice :=
  act.skipped?.or act.selected?

/-- The selections of a kind in the moves of a run, oldest first. -/
def choices (kind : Act → Option Choice) (moves : List (Move BusySession Act)) : List Choice :=
  moves.filterMap fun move => kind move.act

@[simp] theorem choices_append (kind : Act → Option Choice)
    (moves more : List (Move BusySession Act)) :
    choices kind (moves ++ more) = choices kind moves ++ choices kind more :=
  List.filterMap_append

@[simp] theorem choices_singleton (kind : Act → Option Choice) (move : Move BusySession Act) :
    choices kind [move] = (kind move.act).toList := by
  cases known : kind move.act <;> simp [choices, known]

theorem Act.settled?_of_selected {choice : Choice} (selected : act.selected? = some choice) :
    act.settled? = some choice := by
  cases act with
  | resumes => exact selected
  | _ => cases selected

theorem Act.settled?_cases {choice : Choice} (settles : act.settled? = some choice) :
    act.asked? = some choice ∨ act.selected? = some choice := by
  cases act with
  | starts number action progress =>
    cases action with
    | setMain path =>
      cases progress with
      | waits stage => cases settles
      | ended result => exact .inl (by simpa [settled?, skipped?, selected?, asked?] using settles)
    | _ => cases settles
  | edits | moves => cases settles
  | resumes => exact .inr settles

theorem Act.of_selected {choice : Choice} (selected : act.selected? = some choice) :
    ∃ action progress,
      act = .resumes ⟨choice.number, action, .selecting choice.path⟩ (.ok ()) progress := by
  unfold selected? at selected
  split at selected
  · next number action path done progress =>
    obtain rfl := Option.some.inj selected
    exact ⟨action, progress, rfl⟩
  · cases selected

/-- Whether a call starts that opens another workspace. -/
def Act.leaves : Act → Bool
  | .starts _ (.openWorkspace _) _ => true
  | _ => false

/-- No other workspace is opened. -/
def Stays (moves : List (Move BusySession Act)) : Prop :=
  ∀ move ∈ moves, move.act.leaves = false

instance (moves : List (Move BusySession Act)) : Decidable (Stays moves) :=
  inferInstanceAs (Decidable (∀ move ∈ moves, move.act.leaves = false))

/-- No call under way opens another workspace. -/
def Staying (s : BusySession) : Prop :=
  ∀ call ∈ s.ongoing, ∀ path, call.action ≠ .openWorkspace path

theorem Stays.mono {more : List (Move BusySession Act)} (stays : Stays more) (sub : moves ⊆ more) :
    Stays moves :=
  fun move mem => stays move (sub mem)

theorem Stays.last {u v : BusySession} (stays : Stays (moves ++ [⟨u, act, v⟩])) :
    act.leaves = false :=
  stays _ List.mem_concat_self

theorem staying_idle (session : Session) : Staying (idle session) :=
  fun _ mem => nomatch mem

variable [ImageDecoder]

/-- The main document after a step: that of a selection which is answered with success, or the
    one before. -/
theorem Step.main (step : Step s act t) (orderly : Orderly s) (staying : Staying s) :
    t.session.main = (act.selected?.map Choice.path).or s.session.main := by
  cases step with
  | starts action => exact action.start_main s.session
  | edits | moves => rfl
  | resumes before after call waits reply =>
    have mem : call ∈ s.ongoing := waits ▸ List.mem_append_cons_self
    have serves := orderly.serves call mem
    have stays := staying call mem
    obtain ⟨number, action, stage⟩ := call
    have elects := stage.resume_elects s.session reply
    dsimp only
    generalize (stage.resume s.session reply).1.main = main at elects ⊢
    cases elects with
    | keeps stage reply other =>
      cases stage with
      | selecting path => cases other
      | _ => rfl
    | refuses path f => rfl
    | selects path => rfl
    | leaves path reply main =>
      cases serves
      exact absurd rfl (stays path)

theorem Staying.step (staying : Staying s) (step : Step s act t) (stays : act.leaves = false) :
    Staying t := by
  intro call mem path opens
  cases step.comes mem with
  | waited mem => exact staying call mem path opens
  | starts next number =>
    rw [opens] at stays
    cases stays
  | goesOn mem number action => exact staying _ mem path (action ▸ opens)

theorem Staying.run (staying : Staying s) (run : Run Step s moves t) (stays : Stays moves) :
    Staying t := by
  induction run with
  | nil => exact staying
  | snoc earlier step inductionHypothesis =>
    exact (inductionHypothesis (stays.mono (List.subset_append_left ..))).step step stays.last

/-- The main document after a run: that of the selection which was answered last, or the one
    before. -/
theorem main_of_run (run : Run Step s moves t) (orderly : Orderly s) (staying : Staying s)
    (stays : Stays moves) :
    t.session.main =
      ((choices Act.selected? moves).getLast?.map Choice.path).or s.session.main := by
  induction run with
  | nil => rfl
  | @snoc moves s' t act earlier step inductionHypothesis =>
    have before := stays.mono (List.subset_append_left ..)
    rw [step.main (orderly.run earlier) (staying.run earlier before), choices_append,
      choices_singleton, inductionHypothesis before]
    cases act.selected? <;> simp

/-! ## What becomes of a selection -/

/-- A selection that waits goes on waiting, or it is answered. -/
theorem Step.answers (step : Step s act t) (orderly : Orderly s) {call : PendingAction}
    {path : Path} (mem : call ∈ s.ongoing) (waits : call.stage = .selecting path) :
    call ∈ t.ongoing ∨ act.selected? = some ⟨call.number, path⟩ ∨
      act.refused? = some ⟨call.number, path⟩ := by
  by_cases mine : act.number? = some call.number
  · refine .inr ?_
    cases step with
    | starts action =>
      have new : s.issued = call.number := Option.some.inj mine
      exact absurd (orderly.issued call mem) (by omega)
    | edits | moves => cases mine
    | resumes before after other split reply =>
      have mem' : other ∈ s.ongoing := split ▸ List.mem_append_cons_self
      obtain rfl := orderly.unique mem mem' (Option.some.inj mine)
      obtain ⟨number, action, stage⟩ := other
      obtain rfl : stage = .selecting path := waits
      cases reply with
      | error f => exact .inr rfl
      | ok done => exact .inl rfl
  · exact .inl (step.stays mem mine)

/-- A selection that starts asks the backend, unless its document is chosen already. -/
theorem Step.asks (step : Step s act t) {choice : Choice} (asks : act.asked? = some choice) :
    act.skipped? = some choice ∨
      ∃ call ∈ t.ongoing, call.number = choice.number ∧ call.stage = .selecting choice.path := by
  cases step with
  | starts action =>
    cases action with
    | setMain path =>
      simp only [Act.asked?] at asks
      split at asks
      · next compilable =>
        obtain rfl := Option.some.inj asks
        by_cases chosen : s.session.isMain path
        · refine .inl ?_
          simp [Action.start, Session.startSetMain, compilable, chosen, Act.skipped?]
        · refine .inr ⟨⟨s.issued, .setMain path, .selecting path⟩, ?_, rfl, rfl⟩
          simp [Action.start, Session.startSetMain, compilable, chosen, goingOn]
      · cases asks
    | _ => cases asks
  | _ => cases asks

theorem Step.asking (path : Path) (compilable : (DocumentKind.ofPath path).isCompilable)
    (other : s.session.isMain path = false) :
    Step s (.starts s.issued (.setMain path) (.waits (.selecting path)))
      ⟨s.session, s.ongoing ++ [⟨s.issued, .setMain path, .selecting path⟩], s.issued + 1⟩ := by
  have step := Step.starts s (.setMain path)
  simpa [Action.start, Session.startSetMain, compilable, other, goingOn] using step

/-- Every selection that was made is over, was refused, or waits for its answer. -/
theorem asked_of_run (run : Run Step (idle session) moves s) {choice : Choice}
    (made : choice ∈ choices Act.asked? moves) :
    choice ∈ choices Act.settled? moves ∨ choice ∈ choices Act.refused? moves ∨
      ∃ call ∈ s.ongoing, call.number = choice.number ∧ call.stage = .selecting choice.path := by
  induction run with
  | nil => cases made
  | @snoc moves s t act earlier step inductionHypothesis =>
    simp only [choices_append, choices_singleton, List.mem_append, Option.mem_toList] at made ⊢
    rcases made with old | new
    · rcases inductionHypothesis old with settled | refused | ⟨call, mem, number, waits⟩
      · exact .inl (.inl settled)
      · exact .inr (.inl (.inl refused))
      · obtain ⟨_, path⟩ := choice
        obtain rfl := number
        rcases step.answers (orderly_of_run earlier) mem waits with still | selected | refused
        · exact .inr (.inr ⟨call, still, rfl, waits⟩)
        · exact .inl (.inr (Act.settled?_of_selected selected))
        · exact .inr (.inl (.inr refused))
    · rcases step.asks new with skipped | waits
      · exact .inl (.inr (by rw [Act.settled?, skipped]; rfl))
      · exact .inr (.inr waits)

/-- Nothing but a selection that starts comes to wait for the backend's consent. -/
theorem Step.selecting (step : Step s act t) (orderly : Orderly s) {call : PendingAction}
    {path : Path} (mem : call ∈ t.ongoing) (waits : call.stage = .selecting path) :
    call ∈ s.ongoing ∨ act.asked? = some ⟨call.number, path⟩ := by
  obtain ⟨number, action, stage⟩ := call
  obtain rfl : stage = .selecting path := waits
  cases step.comes mem with
  | waited mem => exact .inl mem
  | starts next same =>
    obtain rfl : number = s.issued := same
    refine .inr ?_
    have serves := action.start_serves s.session _ next
    cases serves with
    | selecting path =>
      by_cases compilable : (DocumentKind.ofPath path).isCompilable
      · simp [Act.asked?, compilable]
      · simp [Action.start, Session.startSetMain, compilable] at next
  | goesOn mem _ _ reply next => cases (orderly.serves _ mem).resume_isFirst next

/-- Only selections that were made are waited for or are over. -/
theorem asked_of_settled (run : Run Step (idle session) moves s) :
    (∀ call ∈ s.ongoing, ∀ path, call.stage = .selecting path →
      ⟨call.number, path⟩ ∈ choices Act.asked? moves) ∧
    choices Act.settled? moves ⊆ choices Act.asked? moves := by
  induction run with
  | nil => exact ⟨fun _ mem => (nomatch mem), List.Subset.refl _⟩
  | @snoc moves s t act earlier step inductionHypothesis =>
    obtain ⟨waiting, settled⟩ := inductionHypothesis
    simp only [choices_append, choices_singleton]
    refine ⟨fun call mem path waits => ?_, List.append_subset.mpr ⟨fun choice old => ?_, ?_⟩⟩
    · rcases step.selecting (orderly_of_run earlier) mem waits with old | new
      · exact List.mem_append_left _ (waiting call old path waits)
      · exact List.mem_append_right _ (by simp [new])
    · exact List.mem_append_left _ (settled old)
    · intro choice settles
      rcases Act.settled?_cases (Option.mem_toList.mp settles) with asks | selected
      · exact List.mem_append_right _ (Option.mem_toList.mpr asks)
      · obtain ⟨action, progress, rfl⟩ := Act.of_selected selected
        obtain ⟨before, after, waits, -⟩ := step.of_resumes
        exact List.mem_append_left _ (waiting _
          (waits ▸ List.mem_append_cons_self) choice.path rfl)

/-- A selection that is over has chosen its document, or found it chosen. -/
theorem Step.settles (step : Step s act t) (orderly : Orderly s) (staying : Staying s)
    {choice : Choice} (settles : act.settled? = some choice) : t.session.isMain choice.path := by
  cases selected : act.selected? with
  | some other =>
    obtain rfl := Option.some.inj ((Act.settled?_of_selected selected).symm.trans settles)
    simp [Session.isMain, step.main orderly staying, selected, Path.same_refl]
  | none =>
    have skips : act.skipped? = some choice := by simpa [Act.settled?, selected] using settles
    cases step with
    | starts action =>
      cases action with
      | setMain path =>
        by_cases compilable : (DocumentKind.ofPath path).isCompilable
        · by_cases chosen : s.session.isMain path
          · obtain rfl : (⟨s.issued, path⟩ : Choice) = choice := by
              simpa [Action.start, Session.startSetMain, compilable, chosen, Act.skipped?]
                using skips
            simp [Action.start, Session.startSetMain, compilable, chosen]
          · simp [Action.start, Session.startSetMain, compilable, chosen, Act.skipped?] at skips
        · simp [Action.start, Session.startSetMain, compilable, Act.skipped?] at skips
      | _ => cases skips
    | _ => cases skips

/-- A selection that is over, and after which no other one is, has its document chosen. -/
theorem isMain_of_last (run : Run Step (idle session) moves s) (stays : Stays moves)
    {last : Choice} (settled : last ∈ choices Act.settled? moves)
    (latest : ∀ other ∈ choices Act.asked? moves, other.number ≤ last.number)
    (inOrder : (choices Act.settled? moves).Pairwise Choice.Before) :
    s.session.isMain last.path := by
  obtain ⟨⟨u, act, v⟩, mem, settles⟩ := List.mem_filterMap.mp settled
  obtain ⟨first, rest, cut⟩ := List.append_of_mem mem
  obtain ⟨earlier, step, later⟩ := run.around cut
  -- whatever is settled afterwards was made later
  have none : choices Act.selected? rest = [] := by
    refine List.eq_nil_iff_forall_not_mem.mpr fun other selected => ?_
    obtain ⟨move, mem, selects⟩ := List.mem_filterMap.mp selected
    have settled : other ∈ choices Act.settled? rest :=
      List.mem_filterMap.mpr ⟨move, mem, Act.settled?_of_selected selects⟩
    have before : last.Before other := by
      rw [cut, List.append_cons, choices_append, choices_append, choices_singleton, settles,
        List.pairwise_append] at inOrder
      exact inOrder.2.2 last (by simp) other settled
    have known : other ∈ choices Act.settled? moves := by
      rw [cut, List.append_cons, choices_append]
      exact List.mem_append_right _ settled
    exact absurd before (Nat.not_lt.mpr (latest other ((asked_of_settled run).2 known)))
  have orderly := orderly_of_run earlier
  have staying := (staying_idle session).run earlier
    (stays.mono (cut ▸ List.subset_append_left ..))
  have stepStays := stays _ mem
  have main := main_of_run later (orderly.step step) (staying.step step stepStays)
    fun move mem => stays move (cut ▸ List.mem_append_right _ (List.mem_cons_of_mem _ mem))
  rw [none] at main
  rw [Session.isMain, main]
  exact step.settles orderly staying settles

/-! ## What is shown after a selection -/

/-- An image that is decoded from a page which was delivered in one of the moves, to a cycle that
    was not begun yet with the counters at `k`. -/
def RenderedSince (k : Counters) (moves : List (Move BusySession Act)) (key : PageKey)
    (image : PageImage) : Prop :=
  ∃ move ∈ moves, ∃ call reply progress, move.act = .resumes call reply progress ∧
    (∀ a ∈ call.stage.activity?, ¬ a.BegunBy k) ∧
    DecodedFrom (inPlace (call.stage.brought reply)) key image

/-- What is held some time after a reset was rendered since. -/
theorem holds_since_reset {e : Engine} (run : Run Step s moves t)
    (past : e.reset.counters.Before s.session.engine.counters)
    (blank : ∀ P, Holds P s.session.engine.display) :
    Holds (RenderedSince e.counters moves) t.session.engine.display := by
  induction run with
  | nil => exact blank _
  | @snoc moves s' t act earlier step inductionHypothesis =>
    have holds : Holds (RenderedSince e.counters (moves ++ [⟨s', act, t⟩]))
        s'.session.engine.display :=
      inductionHypothesis.mono fun ⟨move, mem, rest⟩ => ⟨move, List.mem_append_left _ mem, rest⟩
    have now : e.reset.counters.Before s'.session.engine.counters :=
      past.trans (before_of_run earlier)
    cases step with
    | starts action => exact action.start_holds holds
    | edits | moves => exact holds
    | resumes before after call waits reply =>
      have drives := call.stage.resume_drives s'.session reply
      by_cases begun : ∃ a ∈ call.stage.activity?, a.BegunBy e.counters
      · obtain ⟨a, own, begun⟩ := begun
        exact drives.stale_holds own (begun.stale now) holds
      · refine drives.holds holds fun page mem image decoded => ?_
        exact ⟨_, List.mem_concat_self, call, reply, _, rfl,
          fun a own old => begun ⟨a, own, old⟩, decodes_of_mem mem image decoded⟩

/-- All pages that are shown some time after a selection was answered were rendered since. -/
theorem shown_since_selection {u v : BusySession} {choice : Choice}
    (step : Step u act v) (selected : act.selected? = some choice) (run : Run Step v moves t)
    {slot : Preview.Slot} (shown : slot ∈ t.session.engine.state.pages) :
    RenderedSince u.session.engine.counters moves slot.key slot.image := by
  obtain ⟨action, progress, rfl⟩ := Act.of_selected selected
  obtain ⟨before, after, -, -, rfl⟩ := step.of_resumes
  have past := u.session.afterSelect_before choice.path
  have holds := holds_since_reset run past fun P => u.session.afterSelect_holds choice.path
  exact holds.slots slot shown

end BusySession

/-! ## The main document of the backend -/

/-- A session and the main document of its backend.  A selection takes effect at the backend at
    some moment between the request and its answer. -/
structure SessionWithBackend where
  busySession : BusySession
  chosen : Option Path
  /-- The selections that have taken effect, oldest first. -/
  effected : List BusySession.Choice

namespace SessionWithBackend

open BusySession (Choice choices)

/-- Session and backend have the same main document. -/
def fresh (session : Session) : SessionWithBackend :=
  ⟨.idle session, session.main, []⟩

inductive Act where
  | works (act : BusySession.Act)
  /-- A selection takes effect. -/
  | takes (choice : Choice)

section Runs

variable [ImageDecoder]

inductive Step : SessionWithBackend → Act → SessionWithBackend → Prop
  | works {s : SessionWithBackend} {act : BusySession.Act} {busySession : BusySession}
      (step : BusySession.Step s.busySession act busySession)
      (done : ∀ choice ∈ act.selected?, choice ∈ s.effected) :
      Step s (.works act) { s with busySession }
  | takes {s : SessionWithBackend} (call : PendingAction) (path : Path)
      (mem : call ∈ s.busySession.ongoing) (waits : call.stage = .selecting path)
      (once : ⟨call.number, path⟩ ∉ s.effected) :
      Step s (.takes ⟨call.number, path⟩)
        { s with chosen := some path, effected := s.effected ++ [⟨call.number, path⟩] }

/-- The moves of the session. -/
def sessionMoves (moves : List (Move SessionWithBackend Act)) :
    List (Move BusySession BusySession.Act) :=
  moves.filterMap fun move =>
    match move.act with
    | .works act => some ⟨move.before.busySession, act, move.after.busySession⟩
    | .takes _ => none

variable {session : Session} {s t : SessionWithBackend} {moves : List (Move SessionWithBackend Act)}

theorem run_busySession (run : Run Step s moves t) :
    Run BusySession.Step s.busySession (sessionMoves moves) t.busySession := by
  induction run with
  | nil => exact .nil
  | snoc earlier step inductionHypothesis =>
    rw [sessionMoves, List.filterMap_append]
    cases step with
    | works step => exact inductionHypothesis.snoc step
    | takes => simpa [sessionMoves] using inductionHypothesis

/-- What has taken effect so far: each selection that was answered with success, and no others but
    those that were refused or are not answered yet. -/
structure Sound (session : Session) (moves : List (Move BusySession BusySession.Act))
    (s : SessionWithBackend) :
    Prop where
  done : choices BusySession.Act.selected? moves ⊆ s.effected
  whence : ∀ choice ∈ s.effected, choice ∈ choices BusySession.Act.selected? moves ∨
    choice ∈ choices BusySession.Act.refused? moves ∨
      ∃ call ∈ s.busySession.ongoing,
        call.number = choice.number ∧ call.stage = .selecting choice.path
  chosen : s.chosen = (s.effected.getLast?.map Choice.path).or session.main

theorem Sound.works {busyMoves : List (Move BusySession BusySession.Act)} {act : BusySession.Act}
    {busySession : BusySession} (sound : Sound session busyMoves s)
    (orderly : s.busySession.Orderly) (step : BusySession.Step s.busySession act busySession)
    (done : ∀ choice ∈ act.selected?, choice ∈ s.effected) :
    Sound session (busyMoves ++ [⟨s.busySession, act, busySession⟩]) { s with busySession } where
  done := by
    rw [BusySession.choices_append, BusySession.choices_singleton]
    exact List.append_subset.mpr ⟨sound.done, fun choice mem => done choice (by simpa using mem)⟩
  whence choice mem := by
    simp only [BusySession.choices_append, BusySession.choices_singleton, List.mem_append,
      Option.mem_toList]
    rcases sound.whence choice mem with selected | refused | ⟨call, ongoing, number, waits⟩
    · exact .inl (.inl selected)
    · exact .inr (.inl (.inl refused))
    · obtain ⟨_, path⟩ := choice
      obtain rfl := number
      rcases step.answers orderly ongoing waits with still | selected | refused
      · exact .inr (.inr ⟨call, still, rfl, waits⟩)
      · exact .inl (.inr selected)
      · exact .inr (.inl (.inr refused))
  chosen := sound.chosen

theorem sound_of_run (run : Run Step (fresh session) moves s) :
    Sound session (sessionMoves moves) s := by
  induction run with
  | nil => exact ⟨List.Subset.refl _, (fun _ mem => nomatch mem), rfl⟩
  | snoc earlier step sound =>
    rw [sessionMoves, List.filterMap_append]
    cases step with
    | works step done =>
      exact sound.works (BusySession.orderly_of_run (run_busySession earlier)) step done
    | takes call path mem waits once =>
      rw [List.filterMap_cons_none rfl, List.filterMap_nil, List.append_nil]
      refine ⟨fun choice mem => List.mem_append_left _ (sound.done mem), fun choice known => ?_, ?_⟩
      · rcases List.mem_append.mp known with old | new
        · exact sound.whence choice old
        · obtain rfl := List.mem_singleton.mp new
          exact .inr (.inr ⟨call, mem, rfl, waits⟩)
      · simp

/-- If all selections are answered, and none is refused, then those that are answered are those
    that took effect. -/
theorem effected_of_answered (run : Run Step (fresh session) moves s)
    (answered : ∀ call ∈ s.busySession.ongoing, ∀ path, call.stage ≠ .selecting path)
    (accepted : choices BusySession.Act.refused? (sessionMoves moves) = []) {choice : Choice} :
    choice ∈ s.effected ↔ choice ∈ choices BusySession.Act.selected? (sessionMoves moves) := by
  have sound := sound_of_run run
  refine ⟨fun mem => ?_, fun mem => sound.done mem⟩
  rcases sound.whence choice mem with selected | refused | ⟨call, mem, -, waits⟩
  · exact selected
  · rw [accepted] at refused
    cases refused
  · exact absurd waits (answered call mem _)

/-- Selections of main documents that overlap in any way, beside other calls, edits and clicks: if
    all are answered and none is refused, and if they are settled in the order in which they were
    made and take effect in this order, then the main document of the session and that of the
    backend are the one selected last, and all pages that are shown were rendered since the last
    selection was answered. -/
theorem last_selection_chosen (run : Run Step (fresh session) moves s)
    (stays : BusySession.Stays (sessionMoves moves))
    (answered : ∀ call ∈ s.busySession.ongoing, ∀ path, call.stage ≠ .selecting path)
    (accepted : choices BusySession.Act.refused? (sessionMoves moves) = []) {last : Choice}
    (made : last ∈ choices BusySession.Act.asked? (sessionMoves moves))
    (latest : ∀ other ∈ choices BusySession.Act.asked? (sessionMoves moves),
      other.number ≤ last.number)
    (inOrder : (choices BusySession.Act.settled? (sessionMoves moves)).Pairwise Choice.Before)
    (inEffect : s.effected.Pairwise Choice.Before) :
    s.busySession.session.isMain last.path ∧ s.chosen = s.busySession.session.main ∧
      ∀ first u act v rest, sessionMoves moves = first ++ ⟨u, act, v⟩ :: rest →
        act.selected? = some last → ∀ slot ∈ s.busySession.session.engine.state.pages,
          BusySession.RenderedSince u.session.engine.counters rest slot.key slot.image := by
  have runs := run_busySession run
  have settled : last ∈ choices BusySession.Act.settled? (sessionMoves moves) := by
    rcases BusySession.asked_of_run runs made with settled | refused | ⟨call, mem, -, waits⟩
    · exact settled
    · rw [accepted] at refused
      cases refused
    · exact absurd waits (answered call mem _)
  have same : s.effected = choices BusySession.Act.selected? (sessionMoves moves) := by
    refine inEffect.eq_of_mem_iff ?_ fun choice => effected_of_answered run answered accepted
    refine List.pairwise_filterMap.mpr ((List.pairwise_filterMap.mp inOrder).imp ?_)
    intro move later ordered choice selected choice' selected'
    exact ordered choice (BusySession.Act.settled?_of_selected selected) choice'
      (BusySession.Act.settled?_of_selected selected')
  refine ⟨BusySession.isMain_of_last runs stays settled latest inOrder, ?_, ?_⟩
  · rw [(sound_of_run run).chosen, same,
      BusySession.main_of_run runs (BusySession.orderly_idle session)
        (BusySession.staying_idle session) stays]
    rfl
  · intro first u act v rest cut selected slot shown
    obtain ⟨-, step, later⟩ := runs.around cut
    exact BusySession.shown_since_selection step selected later shown

end Runs

attribute [local instance] pngDecoder

/-- A document is open, and none is chosen. -/
def opened : Session :=
  ⟨.start 4, none, none, some (.load ⟨"a.typ"⟩ "a"), false⟩

/-- Two selections overlap, take effect and are answered in the order in which they are made.  The
    cycle of the first one is overtaken, and that of the second one shows a page. -/
theorem selections_in_order : ∃ moves s, Run Step (fresh opened) moves s ∧
    BusySession.Stays (sessionMoves moves) ∧ s.busySession.ongoing = [] ∧
    choices BusySession.Act.refused? (sessionMoves moves) = [] ∧
    choices BusySession.Act.asked? (sessionMoves moves) = [⟨0, ⟨"a.typ"⟩⟩, ⟨1, ⟨"b.typ"⟩⟩] ∧
    choices BusySession.Act.settled? (sessionMoves moves) = [⟨0, ⟨"a.typ"⟩⟩, ⟨1, ⟨"b.typ"⟩⟩] ∧
    s.effected = [⟨0, ⟨"a.typ"⟩⟩, ⟨1, ⟨"b.typ"⟩⟩] ∧
    s.busySession.session.engine.state.pages ≠ [] ∧
    s.busySession.session.isMain ⟨"b.typ"⟩ ∧ s.chosen = s.busySession.session.main ∧
    ∃ first u act v rest, sessionMoves moves = first ++ ⟨u, act, v⟩ :: rest ∧
      act.selected? = some ⟨1, ⟨"b.typ"⟩⟩ ∧ ∀ slot ∈ s.busySession.session.engine.state.pages,
        BusySession.RenderedSince u.session.engine.counters rest slot.key slot.image := by
  let a : Path := ⟨"a.typ"⟩
  let b : Path := ⟨"b.typ"⟩
  let source : Snapshot := ⟨a, "a", 0⟩
  let render : Preview.Render := ⟨source, some ⟨4⟩, ⟨3⟩⟩
  let page : Page := ⟨0, 1, 1, Toy.pagePng ""⟩
  have nothing : Run Step (fresh opened) [] _ := .nil
  have made := (nothing.snoc (.works (.asking a (by decide +kernel) rfl) nofun)).snoc
    (.works (.asking b (by decide +kernel) rfl) nofun)
  have effected := (made.snoc (.takes ⟨0, .setMain a, .selecting a⟩ a
    (by decide +kernel) rfl (by decide +kernel))).snoc
    (.takes ⟨1, .setMain b, .selecting b⟩ b
      (by decide +kernel) rfl (by decide +kernel))
  have first := effected.snoc (.works (.resumes [] [⟨1, .setMain b, .selecting b⟩]
    ⟨0, .setMain a, .selecting a⟩ rfl (.ok ())) (by simp [BusySession.Act.selected?]))
  have second := first.snoc (.works (.resumes [_] []
    ⟨1, .setMain b, .selecting b⟩ rfl (.ok ())) (by simp [BusySession.Act.selected?]))
  have overtaken := second.snoc (.works (.resumes [] [_]
    ⟨0, .setMain a, .cycling (.persisting source ⟨2⟩) true⟩ rfl (.ok ())) nofun)
  have written := overtaken.snoc (.works (.resumes [] []
    ⟨1, .setMain b, .cycling (.persisting source ⟨4⟩) true⟩ (by decide +kernel)
    (.ok ())) nofun)
  have compiled := written.snoc (.works (.resumes [] []
    ⟨1, .setMain b, .cycling (.compiling source ⟨4⟩) true⟩ (by decide +kernel)
    (.ok [])) nofun)
  have located := compiled.snoc (.works (.resumes [] []
    ⟨1, .setMain b, .cycling (.locating render) true⟩ (by decide +kernel)
    (.ok none)) nofun)
  have counted := located.snoc (.works (.resumes [] []
    ⟨1, .setMain b, .cycling (.counting render none) true⟩ (by decide +kernel)
    (.ok 1)) nofun)
  have rendered := counted.snoc (.works (.resumes [] []
    ⟨1, .setMain b, .cycling (.fetchingAll render none) true⟩ (by decide +kernel)
    (.ok [page])) nofun)
  -- the run is evaluated here, once for all, and has a name from here on
  obtain ⟨moves, s, run, stays, ended, accepted, asked, settled, inEffect, shown, cut⟩ :
      ∃ moves s, Run Step (fresh opened) moves s ∧
        BusySession.Stays (sessionMoves moves) ∧ s.busySession.ongoing = [] ∧
        choices BusySession.Act.refused? (sessionMoves moves) = [] ∧
        choices BusySession.Act.asked? (sessionMoves moves) = [⟨0, a⟩, ⟨1, b⟩] ∧
        choices BusySession.Act.settled? (sessionMoves moves) = [⟨0, a⟩, ⟨1, b⟩] ∧
        s.effected = [⟨0, a⟩, ⟨1, b⟩] ∧
        s.busySession.session.engine.state.pages = [⟨.of page.data 0, Toy.draw ""⟩] ∧
        ∃ first u act v rest, sessionMoves moves = first ++ ⟨u, act, v⟩ :: rest ∧
          act.selected? = some ⟨1, b⟩ :=
    ⟨_, _, rendered, by decide +kernel, by decide +kernel, by decide +kernel, by decide +kernel,
      by decide +kernel, by decide +kernel, by decide +kernel, [_, _, _], _, _, _, _, rfl, rfl⟩
  obtain ⟨first, u, act, v, rest, cut, selected⟩ := cut
  have latest : ∀ other ∈ choices BusySession.Act.asked? (sessionMoves moves),
      other.number ≤ 1 := by
    rw [asked]
    decide
  have ordered : [(⟨0, a⟩ : Choice), ⟨1, b⟩].Pairwise Choice.Before := by
    simp [Choice.Before]
  obtain ⟨chosen, same, rendered⟩ := last_selection_chosen run stays
    (fun _ mem => by rw [ended] at mem; cases mem) accepted (show ⟨1, b⟩ ∈ _ by simp [asked])
    latest (settled ▸ ordered) (inEffect ▸ ordered)
  exact ⟨moves, s, run, stays, ended, accepted, asked, settled, inEffect, by simp [shown], chosen,
    same, first, u, act, v, rest, cut, selected, rendered first u act v rest cut selected⟩

/-- Two selections are made one after the other, take effect in this order, and are answered in
    the other order.  The document that was selected first is compiled and stays the main
    document, while the backend has the other one. -/
theorem late_selection_stays : ∃ moves s, Run Step (fresh opened) moves s ∧
    s.busySession.ongoing = [] ∧ choices BusySession.Act.refused? (sessionMoves moves) = [] ∧
    choices BusySession.Act.asked? (sessionMoves moves) = [⟨0, ⟨"a.typ"⟩⟩, ⟨1, ⟨"b.typ"⟩⟩] ∧
    ¬ s.busySession.session.isMain ⟨"b.typ"⟩ ∧ s.chosen = some ⟨"b.typ"⟩ := by
  let a : Path := ⟨"a.typ"⟩
  let b : Path := ⟨"b.typ"⟩
  let source : Snapshot := ⟨a, "a", 0⟩
  let render : Preview.Render := ⟨source, some ⟨4⟩, ⟨3⟩⟩
  have nothing : Run Step (fresh opened) [] _ := .nil
  have made := (nothing.snoc (.works (.asking a (by decide +kernel) rfl) nofun)).snoc
    (.works (.asking b (by decide +kernel) rfl) nofun)
  have effected := (made.snoc (.takes ⟨0, .setMain a, .selecting a⟩ a
    (by decide +kernel) rfl (by decide +kernel))).snoc
    (.takes ⟨1, .setMain b, .selecting b⟩ b
      (by decide +kernel) rfl (by decide +kernel))
  have answered := (effected.snoc (.works (.resumes [⟨0, .setMain a, .selecting a⟩] []
    ⟨1, .setMain b, .selecting b⟩ rfl (.ok ())) (by simp [BusySession.Act.selected?]))).snoc
    (.works (.resumes [] _ ⟨0, .setMain a, .selecting a⟩ rfl (.ok ()))
      (by simp [BusySession.Act.selected?]))
  have overtaken := answered.snoc (.works (.resumes [_] []
    ⟨1, .setMain b, .cycling (.persisting source ⟨2⟩) true⟩ rfl (.ok ())) nofun)
  have written := overtaken.snoc (.works (.resumes [] []
    ⟨0, .setMain a, .cycling (.persisting source ⟨4⟩) true⟩ (by decide +kernel)
    (.ok ())) nofun)
  have compiled := written.snoc (.works (.resumes [] []
    ⟨0, .setMain a, .cycling (.compiling source ⟨4⟩) true⟩ (by decide +kernel)
    (.ok [])) nofun)
  have located := compiled.snoc (.works (.resumes [] []
    ⟨0, .setMain a, .cycling (.locating render) true⟩ (by decide +kernel)
    (.ok none)) nofun)
  have counted := located.snoc (.works (.resumes [] []
    ⟨0, .setMain a, .cycling (.counting render none) true⟩ (by decide +kernel)
    (.ok 0)) nofun)
  have rendered := counted.snoc (.works (.resumes [] []
    ⟨0, .setMain a, .cycling (.fetchingAll render none) true⟩ (by decide +kernel)
    (.ok [])) nofun)
  exact ⟨_, _, rendered, by decide +kernel, rfl, by decide +kernel, by decide +kernel, rfl⟩

end SessionWithBackend

end LivePreview
