import LivePreview.Proofs.Custody
import LivePreview.Proofs.Run
import LivePreview.Proofs.Session.Driving
import LivePreview.Session.Rank

/-!
# Calls of a session

In a `BusySession` a session is called while other calls are under way, and the user edits
meanwhile.  Calls are numbered in the order in which they are made.  Which call is answered next,
and what it is answered, is left open.  A call makes one move when it starts and one with each
answer, and none after the one in which it ends (`course_of_run`).
-/

namespace LivePreview

open Preview (Activity Progress)
open Session (Action Result Stage)

namespace Session

/-- The stages that a call of an action can wait in. -/
inductive Serves : Action → Stage → Prop
  | openingWorkspace (path : Path) : Serves (.openWorkspace path) (.openingWorkspace path)
  | selecting (path : Path) : Serves (.setMain path) (.selecting path)
  | loadingMain (path : Path) : Serves (.setMain path) (.loading path .compile)
  | compilingMain (path : Path) (cycle : Preview.Cycle) :
      Serves (.setMain path) (.cycling cycle true)
  | opening (path : Path) : Serves (.openFile path) (.loading path .finish)
  | creating (path : Path) (text : String) : Serves (.createFile path text) (.creating path text)
  | loadingNew (path : Path) (text : String) :
      Serves (.createFile path text) (.loading path .finish)
  | compiling (cycle : Preview.Cycle) : Serves .compile (.cycling cycle false)
  | rendering (cycle : Preview.Cycle) : Serves .render (.cycling cycle false)
  | saving (save : Save) : Serves (.save save.explicit) (.saving save none)
  | autoSaving (interval stop : Nat) (save : Save) (auto : AutoSave) :
      Serves (.autoSave interval stop) (.saving save (some auto))
  | resting (interval stop : Nat) (auto : AutoSave) :
      Serves (.autoSave interval stop) (.resting auto)
  | persisting (source : Snapshot) (main : Path) (format : ExportFormat) (output : Path) :
      Serves (.export format output) (.persisting source main format output)
  | exporting (main : Path) (format : ExportFormat) (output : Path) :
      Serves (.export format output) (.exporting main format output)
  | clicking (page : Nat) (x y : Float) (click : Preview.Click) :
      Serves (.click page x y) (.clicking click)
  | revealing (page : Nat) (x y : Float) (path : Path) (position : Nat) :
      Serves (.click page x y) (.loading path (.reveal position))

/-- Every stage that an operation comes to with a step serves its action. -/
def Step.Serves (action : Action) (step : Step) : Prop :=
  ∀ next ∈ step.2.next, Session.Serves action next

theorem Step.Serves.of_ended {action : Action} (s : Session) (result : Result) :
    Step.Serves action (s, .ended result) :=
  fun _ mem => nomatch mem

theorem Step.Serves.of_waits {action : Action} {stage : Stage} (s : Session)
    (serves : Session.Serves action stage) : Step.Serves action (s, .waits stage) :=
  fun _ mem => List.mem_singleton.mp mem ▸ serves

theorem startCompile_serves {action : Action} {selected : Bool} (s : Session)
    (cycling : ∀ cycle, Serves action (.cycling cycle selected)) :
    (s.startCompile selected).Serves action := by
  unfold startCompile
  split
  · exact .of_ended _ _
  · exact .of_waits _ (cycling _)

theorem endSave_serves {action : Action} {auto : Option AutoSave} (s : Session)
    (outcome : SaveOutcome) (resting : ∀ a ∈ auto, Serves action (.resting a)) :
    (s.endSave auto outcome).Serves action := by
  cases auto with
  | none => exact .of_ended _ _
  | some auto => exact .of_waits _ (resting auto rfl)

theorem startSave_serves {action : Action} {explicit : Bool} {auto : Option AutoSave} (s : Session)
    (saving : ∀ path content, Serves action (.saving ⟨path, content, explicit⟩ auto))
    (resting : ∀ a ∈ auto, Serves action (.resting a)) :
    (s.startSave explicit auto).Serves action := by
  have begins := s.startSave_begins explicit auto
  generalize s.startSave explicit auto = step at begins ⊢
  cases begins with
  | writes => exact .of_waits _ (saving _ _)
  | busy | nothing => exact endSave_serves _ _ resting

theorem Action.start_serves (s : Session) (action : Action) :
    (action.start s).Serves action := by
  have starts := action.starts s
  generalize action.start s = step at starts ⊢
  cases starts with
  | opensWorkspace path => exact .of_waits _ (.openingWorkspace path)
  | selects path => exact .of_waits _ (.selecting path)
  | opensFile path => exact .of_waits _ (.opening path)
  | creates path text => exact .of_waits _ (.creating path text)
  | compiles => exact startCompile_serves s .compiling
  | renders => exact .of_waits _ (.rendering _)
  | saves explicit =>
    exact startSave_serves s (fun path content => .saving ⟨path, content, explicit⟩)
      (by simp)
  | autoSaves interval stop => exact .of_waits _ (.resting interval stop _)
  | persists => exact .of_waits _ (.persisting ..)
  | exports => exact .of_waits _ (.exporting ..)
  | clicks page x y => exact .of_waits _ (.clicking page x y _)
  | notCompilable | alreadyMain | nothingToRender | nothingToExport => exact .of_ended _ _

theorem Serves.resume [ImageDecoder] {action : Action} {stage : Stage}
    (serves : Serves action stage) (s : Session) (reply : stage.request.Reply) :
    (stage.resume s reply).Serves action := by
  have resumes := stage.resumes s reply
  generalize stage.resume s reply = step at resumes ⊢
  cases resumes with
  | chooses path =>
    cases serves with
    | selecting => exact .of_waits _ (.loadingMain path)
  | recompiles path =>
    cases serves with
    | selecting => exact startCompile_serves _ (.compilingMain path)
  | loadsMain path =>
    cases serves with
    | loadingMain => exact startCompile_serves _ (.compilingMain path)
  | created path text =>
    cases serves with
    | creating => exact .of_waits _ (.loadingNew path text)
  | cyclesOn =>
    cases serves with
    | compilingMain path => exact .of_waits _ (.compilingMain path _)
    | compiling => exact .of_waits _ (.compiling _)
    | rendering => exact .of_waits _ (.rendering _)
  | unwritten | written =>
    cases serves with
    | saving => exact .of_ended _ _
    | autoSaving interval stop => exact endSave_serves _ _ fun a _ => .resting interval stop a
  | savesNext auto =>
    cases serves with
    | resting interval stop =>
      exact startSave_serves s (fun path content => .autoSaving interval stop _ _)
        fun a _ => .resting interval stop a
  | persisted source main format output =>
    cases serves with
    | persisting => exact .of_waits _ (.exporting main format output)
  | reads =>
    cases serves with
    | clicking page x y => exact .of_waits _ (.revealing page x y _ _)
  | _ => exact .of_ended _ _

/-- The stages in which selections and clicks begin. -/
def Stage.isFirst : Stage → Bool
  | .selecting _ => true
  | .clicking _ => true
  | _ => false

/-- Selections and clicks do not come back to where they begin: no stage of theirs is further from
    the end. -/
theorem Serves.resume_isFirst [ImageDecoder] {action : Action} {stage next : Stage}
    (serves : Serves action stage) {s : Session} {reply : stage.request.Reply}
    (goesOn : next ∈ (stage.resume s reply).2.next) : next.isFirst = false := by
  have stepped : stage.resume s reply = ((stage.resume s reply).1, .waits next) := by
    generalize stage.resume s reply = step at goesOn
    obtain ⟨session, other | result⟩ := step
    · rw [List.mem_singleton.mp goesOn]
    · cases goesOn
  have serves' := serves.resume s reply _ goesOn
  cases next with
  | selecting path =>
    cases serves'
    have lower := Stage.resume_rank (by cases serves <;> rfl) stepped
    cases serves with
    | selecting | loadingMain => simp [Stage.rank] at lower
    | compilingMain path cycle => cases cycle <;> simp [Stage.rank, Preview.Cycle.rank] at lower
  | clicking click =>
    cases serves'
    have lower := Stage.resume_rank (by cases serves <;> rfl) stepped
    cases serves <;> simp [Stage.rank] at lower
  | _ => rfl

end Session

/-- A call under way. -/
structure PendingAction where
  number : Nat
  action : Action
  stage : Stage
  deriving DecidableEq

structure BusySession where
  session : Session
  ongoing : List PendingAction
  /-- How many calls were made. -/
  issued : Nat

namespace BusySession

/-- No call was made yet. -/
def idle (session : Session) : BusySession :=
  ⟨session, [], 0⟩

def goingOn (number : Nat) (action : Action) (progress : Progress Stage Result) :
    List PendingAction :=
  progress.next.map (⟨number, action, ·⟩)

inductive Act where
  | starts (number : Nat) (action : Action) (progress : Progress Stage Result)
  /-- The user edits the text. -/
  | edits (content : String) (cursor : Nat)
  | moves (offset : Nat)
  | resumes (call : PendingAction) (reply : call.stage.request.Reply)
      (progress : Progress Stage Result)

def Act.number? : Act → Option Nat
  | .starts number _ _ => some number
  | .resumes call _ _ => some call.number
  | _ => none

/-- What a call answers in a move of its own. -/
def Act.result? : Act → Option Result
  | .starts _ _ (.ended result) => some result
  | .resumes _ _ (.ended result) => some result
  | _ => none

theorem Act.result?_starts {number : Nat} {action : Action} {progress : Progress Stage Result}
    {result : Result} :
    (Act.starts number action progress).result? = some result ↔ progress = .ended result := by
  cases progress <;> simp [result?]

theorem Act.result?_resumes {call : PendingAction} {reply : call.stage.request.Reply}
    {progress : Progress Stage Result} {result : Result} :
    (Act.resumes call reply progress).result? = some result ↔ progress = .ended result := by
  cases progress <;> simp [result?]

/-- The own moves of a call: its start, and the answers to its requests. -/
def movesOf (number : Nat) (moves : List (Move BusySession Act)) : List (Move BusySession Act) :=
  moves.filter fun move => move.act.number? = some number

theorem movesOf_snoc (number : Nat) (moves : List (Move BusySession Act))
    (move : Move BusySession Act) :
    movesOf number (moves ++ [move]) =
      movesOf number moves ++ if move.act.number? = some number then [move] else [] := by
  simp [movesOf, List.filter_append, List.filter_cons]

variable {session : Session} {s t : BusySession} {act : Act} {moves : List (Move BusySession Act)}

theorem mem_goingOn {number : Nat} {action : Action} {progress : Progress Stage Result}
    {call : PendingAction} :
    call ∈ goingOn number action progress ↔
      call.number = number ∧ call.action = action ∧ call.stage ∈ progress.next := by
  simp only [goingOn, List.mem_map]
  constructor
  · rintro ⟨stage, next, rfl⟩
    exact ⟨rfl, rfl, next⟩
  · rintro ⟨rfl, rfl, next⟩
    exact ⟨call.stage, next, rfl⟩

/-! ## Every call has one number -/

/-- No two calls under way have one number, each number was given out, and each call waits in a
    stage of its action. -/
structure Orderly (s : BusySession) : Prop where
  numbered : (s.ongoing.flatMap fun call => [call.number]).Nodup
  issued : ∀ call ∈ s.ongoing, call.number < s.issued
  serves : ∀ call ∈ s.ongoing, Session.Serves call.action call.stage

theorem Orderly.alone (orderly : Orderly s) {before after : List PendingAction}
    {call other : PendingAction}
    (waits : s.ongoing = before ++ call :: after) (mem : other ∈ before ++ after) :
    other.number ≠ call.number := by
  have apart := (List.nodup_flatMap.mp orderly.numbered).2
  rw [waits, List.pairwise_append, List.pairwise_cons] at apart
  rcases List.mem_append.mp mem with left | right
  · have disjoint := apart.2.2 other left call (List.mem_cons_self ..)
    exact fun same => by simp [Function.onFun, same] at disjoint
  · have disjoint := apart.2.1.1 other right
    exact fun same => by simp [Function.onFun, same] at disjoint

theorem Orderly.unique (orderly : Orderly s) {call other : PendingAction} (mem : call ∈ s.ongoing)
    (mem' : other ∈ s.ongoing) (same : other.number = call.number) : other = call := by
  obtain ⟨before, after, waits⟩ := List.append_of_mem mem
  rcases eq_or_beside waits mem' with mine | beside
  · exact mine
  · exact absurd same (orderly.alone waits beside)

/-- Those who left went on under their numbers, or took a new one. -/
theorem nodup_numbers (before left after : List PendingAction) {number : Nat} (action : Action)
    (numbered : ((before ++ left ++ after).flatMap fun call => [call.number]).Nodup)
    (progress : Progress Stage Result)
    (whence : (∃ call ∈ left, call.number = number) ∨
      ∀ call ∈ before ++ left ++ after, call.number ≠ number) :
    ((before ++ goingOn number action progress ++ after).flatMap fun call =>
      [call.number]).Nodup := by
  refine @nodup_exchange _ _ _ [] [] before left _ after numbered ?_ fun n mem => ?_
  · cases progress <;> simp [goingOn]
  · obtain ⟨call, goesOn, here⟩ := List.mem_flatMap.mp mem
    obtain rfl := (List.mem_singleton.mp here).trans (mem_goingOn.mp goesOn).1
    rcases whence with ⟨old, mem, same⟩ | new
    · exact .inl (List.mem_flatMap.mpr ⟨old, mem, List.mem_singleton.mpr same.symm⟩)
    · refine .inr fun known => ?_
      obtain ⟨other, mem, same⟩ := List.mem_flatMap.mp known
      exact new other mem (List.mem_singleton.mp same).symm

theorem orderly_idle (session : Session) : Orderly (idle session) :=
  ⟨List.nodup_nil, (fun _ mem => nomatch mem), fun _ mem => nomatch mem⟩

/-! ## Steps -/

variable [ImageDecoder]

/-- One step of a session that is called. -/
inductive Step : BusySession → Act → BusySession → Prop
  | starts (s : BusySession) (action : Action) :
      Step s (.starts s.issued action (action.start s.session).2)
        ⟨(action.start s.session).1,
          s.ongoing ++ goingOn s.issued action (action.start s.session).2, s.issued + 1⟩
  | edits (s : BusySession) (content : String) (cursor : Nat) :
      Step s (.edits content cursor) { s with session := (s.session.edit content cursor).1 }
  | moves (s : BusySession) (offset : Nat) :
      Step s (.moves offset) { s with session := (s.session.moveCursor offset).1 }
  | resumes {s : BusySession} (before after : List PendingAction) (call : PendingAction)
      (waits : s.ongoing = before ++ call :: after) (reply : call.stage.request.Reply) :
      Step s (.resumes call reply (call.stage.resume s.session reply).2)
        ⟨(call.stage.resume s.session reply).1,
          before ++ goingOn call.number call.action (call.stage.resume s.session reply).2 ++ after,
          s.issued⟩

theorem Step.of_resumes {call : PendingAction} {reply : call.stage.request.Reply}
    {progress : Progress Stage Result} (step : Step s (.resumes call reply progress) t) :
    ∃ before after, s.ongoing = before ++ call :: after ∧
      progress = (call.stage.resume s.session reply).2 ∧
      t = ⟨(call.stage.resume s.session reply).1,
        before ++ goingOn call.number call.action progress ++ after, s.issued⟩ := by
  cases step with
  | resumes before after _ waits reply => exact ⟨before, after, waits, rfl, rfl⟩

/-- Where a call comes from that is under way after a step: it was under way before, it was made
    just now, or it went on with an answer. -/
inductive Comes (s : BusySession) (call : PendingAction) : Act → Prop
  | waited {act : Act} (mem : call ∈ s.ongoing) : Comes s call act
  | starts (next : call.stage ∈ (call.action.start s.session).2.next)
      (number : call.number = s.issued) :
      Comes s call (.starts s.issued call.action (call.action.start s.session).2)
  | goesOn {old : PendingAction} (mem : old ∈ s.ongoing) (number : call.number = old.number)
      (action : call.action = old.action) (reply : old.stage.request.Reply)
      (next : call.stage ∈ (old.stage.resume s.session reply).2.next) :
      Comes s call (.resumes old reply (old.stage.resume s.session reply).2)

theorem Step.comes {call : PendingAction} (step : Step s act t) (mem : call ∈ t.ongoing) :
    Comes s call act := by
  cases step with
  | starts action =>
    rcases List.mem_append.mp mem with old | new
    · exact .waited old
    · obtain ⟨number, rfl, next⟩ := mem_goingOn.mp new
      exact .starts next number
  | edits | moves => exact .waited mem
  | resumes before after old waits reply =>
    rcases beside_or_next mem with waited | new
    · exact .waited (mem_of_beside waits waited)
    · obtain ⟨number, action, next⟩ := mem_goingOn.mp new
      exact .goesOn (waits ▸ List.mem_append_cons_self) number action reply next

theorem Step.before (step : Step s act t) :
    s.session.engine.counters.Before t.session.engine.counters := by
  cases step with
  | starts action => exact action.start_before s.session
  | edits | moves => exact .refl _
  | resumes before after call waits reply => exact (Stage.resume_drives _ _ reply).before

theorem before_of_run (run : Run Step s moves t) :
    s.session.engine.counters.Before t.session.engine.counters :=
  run.keeps (P := fun _ t => s.session.engine.counters.Before t.session.engine.counters)
    (.refl _) fun earlier step => earlier.trans step.before

theorem issued_of_run (run : Run Step s moves t) : s.issued ≤ t.issued := by
  refine run.keeps (P := fun _ t => s.issued ≤ t.issued) (Nat.le_refl _) fun known step => ?_
  cases step with
  | starts => exact Nat.le_succ_of_le known
  | _ => exact known

/-! ## Orderly runs -/

theorem Orderly.step (orderly : Orderly s) (step : Step s act t) : Orderly t where
  numbered := by
    have numbered := orderly.numbered
    cases step with
    | starts action =>
      have new : ∀ call ∈ s.ongoing, call.number ≠ s.issued :=
        fun call mem => Nat.ne_of_lt (orderly.issued call mem)
      have appended := nodup_numbers s.ongoing [] [] action (by simpa using numbered)
        (action.start s.session).2 (.inr (by simpa using new))
      rwa [List.append_nil] at appended
    | edits | moves => exact numbered
    | resumes before after call waits reply =>
      refine nodup_numbers _ [call] _ _ ?_ _ (.inl ⟨call, List.mem_singleton_self _, rfl⟩)
      rwa [List.append_assoc, List.singleton_append, ← waits]
  issued call mem := by
    cases step.comes mem with
    | waited mem => exact Nat.lt_of_lt_of_le (orderly.issued call mem) (issued_of_run (.one step))
    | starts next number =>
      cases step
      exact number ▸ Nat.lt_succ_self _
    | goesOn mem number =>
      rw [number]
      exact Nat.lt_of_lt_of_le (orderly.issued _ mem) (issued_of_run (.one step))
  serves call mem := by
    cases step.comes mem with
    | waited mem => exact orderly.serves call mem
    | starts next => exact call.action.start_serves s.session _ next
    | goesOn mem number action reply next =>
      rw [action]
      exact (orderly.serves _ mem).resume s.session reply _ next

theorem Orderly.run (orderly : Orderly s) (run : Run Step s moves t) : Orderly t :=
  run.keeps (P := fun _ t => Orderly t) orderly fun orderly step => orderly.step step

theorem orderly_of_run (run : Run Step (idle session) moves s) : Orderly s :=
  (orderly_idle session).run run

/-- A call under way was made. -/
theorem made_of_ongoing (run : Run Step (idle session) moves s) {call : PendingAction}
    (mem : call ∈ s.ongoing) :
    ∃ u progress v, ⟨u, .starts call.number call.action progress, v⟩ ∈ moves := by
  induction run generalizing call with
  | nil => cases mem
  | @snoc moves s t act earlier step inductionHypothesis =>
    cases step.comes mem with
    | waited mem =>
      obtain ⟨u, progress, v, made⟩ := inductionHypothesis mem
      exact ⟨u, progress, v, List.mem_append_left _ made⟩
    | starts next number =>
      rw [number]
      exact ⟨s, _, t, List.mem_concat_self⟩
    | goesOn mem number action =>
      obtain ⟨u, progress, v, made⟩ := inductionHypothesis mem
      rw [number, action]
      exact ⟨u, progress, v, List.mem_append_left _ made⟩

/-! ## The course of a call -/

/-- How far a call has come: it was not made yet, it is under way, or it has ended with its last
    move. -/
inductive Course (number : Nat) (s : BusySession) : List (Move BusySession Act) → Prop
  | ahead (new : s.issued ≤ number) : Course number s []
  | underway {own : List (Move BusySession Act)} (call : PendingAction) (mem : call ∈ s.ongoing)
      (same : call.number = number) (goOn : ∀ move ∈ own, move.act.result? = none) :
      Course number s own
  | finished (earlier : List (Move BusySession Act)) {last : Move BusySession Act}
      (old : number < s.issued) (absent : ∀ call ∈ s.ongoing, call.number ≠ number)
      (goOn : ∀ move ∈ earlier, move.act.result? = none) (ended : last.act.result?.isSome) :
      Course number s (earlier ++ [last])

section Course

variable {number : Nat} {own : List (Move BusySession Act)}

/-- A call stays where it is while others move. -/
theorem Step.stays (step : Step s act t) {call : PendingAction} (mem : call ∈ s.ongoing)
    (other : act.number? ≠ some call.number) : call ∈ t.ongoing := by
  cases step with
  | starts action => exact List.mem_append_left _ mem
  | edits | moves => exact mem
  | resumes before after old waits reply =>
    rw [waits] at mem
    rcases List.mem_append.mp mem with left | right
    · exact List.mem_append_left _ (List.mem_append_left _ left)
    · rcases List.mem_cons.mp right with rfl | right
      · exact absurd rfl other
      · exact List.mem_append_right _ right

/-- No call comes up under a number while others move. -/
theorem Step.absent (step : Step s act t) (absent : ∀ call ∈ s.ongoing, call.number ≠ number)
    (other : act.number? ≠ some number) : ∀ call ∈ t.ongoing, call.number ≠ number := by
  rintro call mem rfl
  cases step.comes mem with
  | waited mem => exact absent call mem rfl
  | starts next issued => exact other (congrArg some issued.symm)
  | goesOn mem same => exact other (congrArg some same.symm)

/-- What others do is nothing to a call. -/
theorem Course.other (course : Course number s own) (step : Step s act t)
    (other : act.number? ≠ some number) : Course number t own := by
  cases course with
  | ahead new =>
    refine .ahead ?_
    cases step with
    | starts action =>
      have distinct : s.issued ≠ number := fun same => other (congrArg some same)
      exact Nat.lt_of_le_of_ne new distinct
    | _ => exact new
  | underway call mem same goOn =>
    subst same
    exact .underway call (step.stays mem other) rfl goOn
  | finished earlier old absent goOn ended =>
    exact .finished earlier (Nat.lt_of_lt_of_le old (issued_of_run (.one step)))
      (step.absent absent other) goOn ended

/-- A call that starts makes its first move. -/
theorem Course.start (course : Course s.issued s own) (orderly : Orderly s) {action : Action}
    {progress : Progress Stage Result} (step : Step s (.starts s.issued action progress) t) :
    Course s.issued t (own ++ [⟨s, .starts s.issued action progress, t⟩]) := by
  have new : ∀ call ∈ s.ongoing, call.number ≠ s.issued :=
    fun call mem => Nat.ne_of_lt (orderly.issued call mem)
  cases course with
  | underway call mem same => exact absurd same (new call mem)
  | finished _ old => exact absurd old (Nat.lt_irrefl _)
  | ahead =>
    cases step with
    | starts =>
      generalize action.start s.session = after
      obtain ⟨session, stage | result⟩ := after
      · refine .underway _ List.mem_concat_self rfl ?_
        intro move mem
        obtain rfl := List.mem_singleton.mp mem
        rfl
      · refine .finished [] (Nat.lt_succ_self _) (fun call mem => ?_)
          (fun _ mem => nomatch mem) rfl
        exact new call (by simpa [goingOn] using mem)

/-- A call that is answered makes one more move. -/
theorem Course.resume {call : PendingAction} (course : Course call.number s own)
    (orderly : Orderly s) {reply : call.stage.request.Reply} {progress : Progress Stage Result}
    (step : Step s (.resumes call reply progress) t) :
    Course call.number t (own ++ [⟨s, .resumes call reply progress, t⟩]) := by
  obtain ⟨before, after, waits, -, left⟩ := step.of_resumes
  have mem : call ∈ s.ongoing := waits ▸ List.mem_append_cons_self
  cases course with
  | ahead new => exact absurd (orderly.issued call mem) (Nat.not_lt.mpr new)
  | finished _ _ absent => exact absurd rfl (absent call mem)
  | underway _ _ _ goOn =>
    cases progress with
    | waits stage =>
      refine .underway ⟨call.number, call.action, stage⟩ ?_ rfl fun move mem => ?_
      · simp [left, goingOn]
      · rcases List.mem_append.mp mem with earlier | last
        · exact goOn move earlier
        · obtain rfl := List.mem_singleton.mp last
          rfl
    | ended result =>
      refine .finished _ (Nat.lt_of_lt_of_le (orderly.issued call mem) (issued_of_run (.one step)))
        (fun other mem => ?_) goOn rfl
      exact orderly.alone waits (by simpa [left, goingOn] using mem)

end Course

/-- At any time a call was not made yet, is under way with moves in which it goes on, or has
    ended with the last of its moves. -/
theorem course_of_run (run : Run Step (idle session) moves s) (number : Nat) :
    Course number s (movesOf number moves) := by
  refine run.keepsAlong (P := fun moves s => Course number s (movesOf number moves))
    (.ahead (Nat.zero_le _)) fun {moves s act t} earlier course step => ?_
  have orderly := orderly_of_run earlier
  rw [movesOf_snoc]
  split
  · next mine =>
    cases act with
    | starts number action progress =>
      obtain rfl := Option.some.inj mine
      obtain rfl : number = s.issued := by cases step; rfl
      exact course.start orderly step
    | resumes call reply progress =>
      obtain rfl := Option.some.inj mine
      exact course.resume orderly step
    | edits | moves => cases mine
  · next other =>
    rw [List.append_nil]
    exact course.other step other

end BusySession

end LivePreview
