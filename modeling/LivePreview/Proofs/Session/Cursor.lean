import LivePreview.Page.Decoder
import LivePreview.Proofs.Preview.Coupling
import LivePreview.Proofs.Preview.Outlook
import LivePreview.Proofs.Session.Clicks
import LivePreview.Proofs.Session.Frame
import LivePreview.Proofs.Session.Record

/-!
# Where the cursor is

The cursor never lies past the end of the text, whatever is edited, loaded or clicked, and so do
the offsets that the backend is asked about (`Stage.resume_inRange`).  Only a click that leads to a
file has the cursor told: it is put where the click leads in the text that the buffer then shows,
and told there (`Stage.resume_reveals`).
-/

namespace LivePreview

open Preview (Click Cycle Engine Progress)

/-- Whether an event tells of the cursor in a file. -/
def Event.isReveal : Event → Bool
  | .revealCursor _ _ => true
  | _ => false

namespace Preview

namespace Engine

/-- What was told of the cursor so far. -/
def reveals (e : Engine) : List Event :=
  e.outlook.messages.filter Event.isReveal

theorem reveals_eq (e : Engine) : e.reveals = e.events.filter Event.isReveal := by
  refine e.filter_messages fun event reveal => ?_
  cases event <;> first | rfl | cases reveal

theorem reveals_of_outlook {e e' : Engine} (same : e'.outlook = e.outlook) :
    e'.reveals = e.reveals :=
  congrArg (fun o => o.messages.filter Event.isReveal) same

@[simp] theorem emit_reveals (e : Engine) (event : Event) :
    (e.emit event).reveals = e.reveals ++ [event].filter Event.isReveal := by
  rw [reveals_eq, reveals_eq, emit_events, List.filter_append]

@[simp] theorem say_reveals (e : Engine) (lines : List Console.LogLine) :
    (e.say lines).reveals = e.reveals :=
  reveals_of_outlook (e.say_outlook lines)

@[simp] theorem startCompile_reveals (e : Engine) (source : Snapshot) :
    (e.startCompile source).1.reveals = e.reveals :=
  reveals_of_outlook (e.startCompile_outlook source)

@[simp] theorem startRender_reveals (e : Engine) (source : Snapshot) (compile : Option Ticket) :
    (e.startRender source compile).1.reveals = e.reveals :=
  reveals_of_outlook (e.startRender_outlook source compile)

@[simp] theorem reset_reveals (e : Engine) : e.reset.reveals = e.reveals := by
  rw [reveals, reset_outlook]
  rfl

end Engine

/-- No cycle tells of the cursor. -/
theorem Cycle.resume_reveals [ImageDecoder] (c : Cycle) (e : Engine) (reply : c.call.Reply) :
    (c.resume e reply).1.reveals = e.reveals := by
  have concludes := c.resume_concludes e reply
  revert concludes
  generalize c.resume e reply = step
  rintro (same | same | ⟨f, outlook⟩ | ⟨pages, p, told, positions, outlook⟩)
  · exact Engine.reveals_of_outlook same
  · exact Engine.reveals_of_outlook same
  · simp [Engine.reveals, outlook, Outlook.failed, Event.isReveal]
  · have none : told.filter Event.isReveal = [] := by
      refine List.filter_eq_nil_iff.mpr fun event mem => ?_
      rw [positions event mem]
      simp [Event.isReveal]
    simp [Engine.reveals, outlook, none]

theorem Click.resume_reveals (c : Click) (e : Engine) (reply : Except Failure Jump) :
    (c.resume e reply).1.reveals = e.reveals := by
  unfold Click.resume
  split
  · simp
  · split
    · simp [Event.isReveal]
    · next jump _ => cases jump <;> simp [Engine.follow, Event.isReveal, Engine.reveals_eq]

/-- A click that is answered leads to what the answer says. -/
theorem Click.reply_of_file {c : Click} {e : Engine} {reply : Except Failure Jump} {path : Path}
    {position : Nat} (leads : (c.resume e reply).2 = some (.file path position)) :
    reply = .ok (.file path position) := by
  unfold Click.resume at leads
  split at leads
  · cases leads
  · split at leads
    · cases leads
    · next jump checked =>
      obtain rfl := Option.some.inj leads
      cases reply with
      | error f => cases checked
      | ok jump =>
        cases jump with
        | url url =>
          simp only [checkJump] at checked
          split at checked <;> cases checked
        | _ => exact checked

end Preview

/-! ## The cursor within the text -/

/-- Whether the cursor of a snapshot lies in its text. -/
def Snapshot.InRange (source : Snapshot) : Prop :=
  source.cursor ≤ source.content.length

namespace Session

/-- Whether the cursor lies in the text of the buffer. -/
def InRange (s : Session) : Prop :=
  ∀ b, s.buffer = some b → b.cursor ≤ b.content.length

/-- The snapshot of the buffer that a stage works on. -/
def Stage.source? : Stage → Option Snapshot
  | .cycling cycle _ => some cycle.source
  | .persisting source _ _ _ => some source
  | _ => none

def Stage.InRange (stage : Stage) : Prop :=
  ∀ source ∈ stage.source?, source.InRange

/-- The cursor lies in the text after a step, and in that of the snapshot it goes on with. -/
def Step.InRange (step : Step) : Prop :=
  step.1.InRange ∧ ∀ stage ∈ step.2.next, stage.InRange

variable {s t : Session}

theorem InRange.of_buffer (inRange : s.InRange) (same : t.buffer = s.buffer) : t.InRange :=
  fun b shown => inRange b (same ▸ shown)

theorem InRange.snapshot (inRange : s.InRange) {source : Snapshot}
    (taken : s.snapshot = some source) : source.InRange := by
  obtain ⟨b, shown, rfl⟩ := Option.map_eq_some_iff.mp taken
  exact inRange b shown

/-- A cursor that is moved stays in the text. -/
theorem InRange.map {f : Buffer → Buffer} (bounded : ∀ b, (f b).cursor ≤ (f b).content.length)
    (changed : t.buffer = s.buffer.map f) : t.InRange := by
  intro b shown
  obtain ⟨old, -, rfl⟩ := Option.map_eq_some_iff.mp (changed.symm.trans shown)
  exact bounded old

theorem Step.InRange.of_ended (inRange : t.InRange) (result : Result) :
    Step.InRange (t, .ended result) :=
  ⟨inRange, fun _ mem => nomatch mem⟩

theorem Step.InRange.of_waits (inRange : t.InRange) {stage : Stage} (fits : stage.InRange) :
    Step.InRange (t, .waits stage) :=
  ⟨inRange, fun _ mem => List.mem_singleton.mp mem ▸ fits⟩

theorem Stage.inRange_of_none {stage : Stage} (none : stage.source? = none) : stage.InRange :=
  fun _ mem => nomatch none.symm.trans mem

theorem startCompile_inRange (inRange : s.InRange) (selected : Bool) :
    (s.startCompile selected).InRange := by
  unfold startCompile
  split
  · exact .of_ended inRange _
  · next source taken =>
    refine .of_waits (inRange.of_buffer rfl) fun source' mem => ?_
    obtain rfl := Option.some.inj mem
    exact inRange.snapshot taken

theorem endSave_inRange (inRange : s.InRange) (auto : Option AutoSave) (outcome : SaveOutcome) :
    (s.endSave auto outcome).InRange := by
  cases auto with
  | none => exact .of_ended inRange _
  | some auto => exact .of_waits inRange (Stage.inRange_of_none rfl)

theorem SaveBegins.inRange {explicit : Bool} {auto : Option AutoSave} {step : Step}
    (begins : s.SaveBegins explicit auto step) (inRange : s.InRange) : step.InRange := by
  cases begins with
  | busy =>
    refine endSave_inRange ?_ auto .inProgress
    exact inRange.of_buffer rfl
  | writes => exact .of_waits (inRange.of_buffer rfl) (Stage.inRange_of_none rfl)
  | nothing =>
    refine endSave_inRange ?_ auto .clean
    split <;> exact inRange.of_buffer rfl

theorem Action.start_inRange (inRange : s.InRange) (action : Action) :
    (action.start s).InRange := by
  have starts := action.starts s
  generalize action.start s = step at starts ⊢
  cases starts with
  | compiles => exact startCompile_inRange inRange false
  | saves explicit => exact (s.startSave_begins explicit none).inRange inRange
  | renders source shown =>
    refine .of_waits (inRange.of_buffer rfl) fun source' mem => ?_
    obtain rfl := Option.some.inj mem
    exact inRange.snapshot shown
  | persists format output chosen shown =>
    refine .of_waits inRange fun source' mem => ?_
    obtain rfl := Option.some.inj mem
    exact inRange.snapshot shown
  | notCompilable | alreadyMain | nothingToRender | nothingToExport =>
    exact .of_ended (inRange.of_buffer rfl) _
  | _ => exact .of_waits (inRange.of_buffer rfl) (Stage.inRange_of_none rfl)

/-- A save that is done marks the buffer, and leaves text and cursor alone. -/
theorem afterWrite_inRange (inRange : s.InRange) (save : Save) : (s.afterWrite save).InRange := by
  intro b shown
  obtain ⟨old, held, rfl⟩ := Option.map_eq_some_iff.mp shown
  split <;> exact inRange old held

theorem reveal_inRange (inRange : s.InRange) (path : Path) (position : Nat) :
    (s.reveal path position).InRange := by
  unfold reveal
  split
  · exact inRange
  · next b shown =>
    intro b' moved
    obtain rfl := Option.some.inj moved
    exact Nat.min_le_right ..

theorem load_inRange (s : Session) (path : Path) (content : String) :
    (s.load path content).InRange := by
  intro b loaded
  obtain rfl := Option.some.inj loaded
  exact Nat.zero_le _

theorem Stage.resume_inRange [ImageDecoder] (inRange : s.InRange) {stage : Stage}
    (fits : stage.InRange) (reply : stage.request.Reply) : (stage.resume s reply).InRange := by
  have resumes := stage.resumes s reply
  generalize stage.resume s reply = step at resumes ⊢
  cases resumes with
  | enters =>
    refine .of_ended (fun b shown => ?_) _
    cases shown
  | recompiles =>
    refine startCompile_inRange ?_ true
    exact inRange.of_buffer rfl
  | loads path content => exact .of_ended (load_inRange s path content) _
  | loadsMain path content => exact startCompile_inRange (load_inRange s path content) true
  | loadsTarget path position content =>
    exact .of_ended (reveal_inRange (load_inRange s path content) path position) _
  | cyclesOn cycle selected reply resumed =>
    refine .of_waits (inRange.of_buffer rfl) fun source mem => ?_
    obtain rfl := Option.some.inj mem
    rw [(Cycle.succeeds_of_resume resumed).source]
    exact fits _ rfl
  | unwritten save auto e =>
    refine endSave_inRange ?_ auto _
    exact inRange.of_buffer rfl
  | written save auto => exact endSave_inRange (afterWrite_inRange inRange save) auto _
  | savesNext => exact (s.startSave_begins false _).inRange inRange
  | reveals =>
    refine .of_ended (reveal_inRange ?_ _ _) _
    exact inRange.of_buffer rfl
  | chooses | created | persisted | reads =>
    exact .of_waits (inRange.of_buffer rfl) (inRange_of_none rfl)
  | _ => exact .of_ended (inRange.of_buffer rfl) _

/-- The offsets that the backend is asked about are cursors of snapshots. -/
theorem Stage.InRange.asks {stage : Stage} (fits : stage.InRange) {offset : Nat} {text : String}
    {path : Path} (asks : stage.request = .call (.resolveCursorPosition offset text path)) :
    offset ≤ text.length := by
  cases stage with
  | cycling cycle selected =>
    have source := fits cycle.source rfl
    cases cycle <;> cases asks
    exact source
  | _ => cases asks

/-! ## Where the cursor is told -/

/-- `stage.Leads reply path position`: with the reply a click is led to a byte position of a
    file, which is open or was read just now. -/
inductive Stage.Leads : (stage : Stage) → stage.request.Reply → Path → Nat → Prop
  | opened (click : Click) (path : Path) (position : Nat) :
      Leads (.clicking click) (.ok (.file path position)) path position
  | read (path : Path) (position : Nat) (content : String) :
      Leads (.loading path (.reveal position)) (.ok content) path position

/-- `s.Reveals stage reply t`: with the reply, which leads from `s` to `t`, nothing is told of the
    cursor, or the cursor is put where a click leads, and told. -/
inductive Reveals (s : Session) (stage : Stage) (reply : stage.request.Reply) (t : Session) : Prop
  | quiet (same : t.engine.reveals = s.engine.reveals)
  | reveals {path : Path} {position : Nat} {b : Buffer} (leads : stage.Leads reply path position)
      (told : t.engine.reveals = s.engine.reveals ++ [.revealCursor path b.cursor])
      (shown : t.buffer = some b) (own : b.path.same path)
      (cursor : b.cursor = Text.charOffset b.content position)

theorem startCompile_reveals (s : Session) (selected : Bool) :
    (s.startCompile selected).1.engine.reveals = s.engine.reveals := by
  unfold startCompile
  split
  · rfl
  · exact Engine.startCompile_reveals ..

theorem SaveBegins.reveals {explicit : Bool} {auto : Option AutoSave} {step : Step}
    (begins : s.SaveBegins explicit auto step) :
    step.1.engine.reveals = s.engine.reveals := by
  cases begins with
  | busy => simp
  | writes => rfl
  | nothing => cases explicit <;> simp [Event.isReveal]

/-- No call tells of the cursor when it starts. -/
theorem Action.start_reveals (s : Session) (action : Action) :
    (action.start s).1.engine.reveals = s.engine.reveals := by
  have starts := action.starts s
  generalize action.start s = step at starts ⊢
  cases starts with
  | compiles => exact startCompile_reveals s false
  | saves explicit => exact (s.startSave_begins explicit none).reveals
  | renders source => exact Engine.startRender_reveals s.engine source none
  | notCompilable | nothingToExport => simp [Event.isReveal]
  | _ => rfl

/-- The cursor is put to a byte position of the file that is open. -/
theorem Reveals.of_open {stage : Stage} {reply : stage.request.Reply} {path : Path}
    {position : Nat} {b : Buffer} (leads : stage.Leads reply path position)
    (shown : t.buffer = some b) (own : b.path.same path)
    (same : t.engine.reveals = s.engine.reveals) :
    Reveals s stage reply (t.reveal path position) := by
  have fits := Nat.min_eq_left (Text.charOffset_le b.content position)
  refine .reveals (b := b.moveCursor (Text.charOffset b.content position)) leads ?_ ?_ own fits
  · simp [reveal, shown, same, Event.isReveal, Buffer.moveCursor, fits]
  · simp [reveal, shown]

theorem Stage.resume_reveals [ImageDecoder] (s : Session) (stage : Stage)
    (reply : stage.request.Reply) :
    Reveals s stage reply (stage.resume s reply).1 := by
  have resumes := stage.resumes s reply
  generalize stage.resume s reply = step at resumes ⊢
  cases resumes with
  | enters => exact .quiet (by simp [enter])
  | chooses => exact .quiet (by simp [choose])
  | recompiles =>
    refine .quiet ((startCompile_reveals ..).trans ?_)
    simp [choose]
  | loadsMain => exact .quiet ((startCompile_reveals ..).trans (by simp))
  | loadsTarget path position content =>
    have loaded : (s.load path content).engine.reveals = s.engine.reveals := by simp
    exact .of_open (t := s.load path content) (.read path position content) rfl path.same_refl
      loaded
  | cyclesOn cycle selected reply resumed | concludes cycle selected reply resumed =>
    have same := cycle.resume_reveals s.engine reply
    rw [resumed] at same
    exact .quiet same
  | unwritten => exact .quiet (by simp [afterUnwritten, Event.isReveal])
  | written save auto =>
    refine .quiet ?_
    simp only [endSave_session, afterWrite]
    split <;> simp [Event.isReveal]
  | savesNext => exact .quiet (s.startSave_begins false _).reveals
  | @reveals click reply engine path position leads isOpen =>
    have same := click.resume_reveals s.engine reply
    rw [leads] at same
    obtain rfl := Click.reply_of_file (congrArg Prod.snd leads)
    obtain ⟨b, shown, own⟩ := isOpen_iff.mp isOpen
    exact .of_open (t := { s with engine }) (.opened click path position) shown own same
  | reads click reply leads | clicked click reply leads =>
    have same := click.resume_reveals s.engine reply
    rw [leads] at same
    exact .quiet same
  | stops | persisted => exact .quiet rfl
  | _ => exact .quiet (by simp [Event.isReveal])

/-- A click goes on to the file that it is answered. -/
theorem afterClick_next {click : Click} {reply : Except Failure Jump} {stage : Stage}
    (next : stage ∈ (s.afterClick click reply).2.next) :
    ∃ path position, reply = .ok (.file path position) ∧
      stage = .loading path (.reveal position) := by
  simp only [afterClick] at next
  split at next
  · next path position leads =>
    refine ⟨path, position, Click.reply_of_file leads, ?_⟩
    split at next
    · cases next
    · exact List.mem_singleton.mp next
  · cases next

/-! ## The events of a step -/

theorem prepend_events (notes : List Preview.Note) (s : Session) :
    (s.prepend notes).engine.events = Engine.eventsOf notes ++ s.engine.events :=
  Engine.eventsOf_append ..

/-- A step tells the same events whatever was told before. -/
theorem Action.start_events (s : Session) (action : Action) : (action.start s).1.engine.events =
    s.engine.events ++ (action.start s.unrecorded).1.engine.events := by
  have carried := Action.start_prepend s.engine.notes s.unrecorded action
  rw [unrecorded_prepend] at carried
  rw [carried]
  exact prepend_events ..

theorem Stage.resume_events [ImageDecoder] (s : Session) (stage : Stage)
    (reply : stage.request.Reply) :
    (stage.resume s reply).1.engine.events =
      s.engine.events ++ (stage.resume s.unrecorded reply).1.engine.events := by
  have carried := Stage.resume_prepend s.engine.notes s.unrecorded stage reply
  rw [unrecorded_prepend] at carried
  rw [carried]
  exact prepend_events ..

end Session

namespace BusySession

open Session (Action Result Stage)

section Runs

variable [ImageDecoder] {session : Session} {s t : BusySession} {act : Act}
  {moves : List (Move BusySession Act)}

/-- What is told in a move. -/
def told (move : Move BusySession Act) : List Event :=
  move.after.session.engine.events.drop move.before.session.engine.events.length

theorem Step.events (step : Step s act t) :
    t.session.engine.events = s.session.engine.events ++ told ⟨s, act, t⟩ := by
  have grows : s.session.engine.events <+: t.session.engine.events := by
    cases step with
    | starts action => exact ⟨_, (action.start_events s.session).symm⟩
    | edits | moves => exact List.prefix_rfl
    | resumes before after call waits reply =>
      exact ⟨_, (call.stage.resume_events s.session reply).symm⟩
  exact (List.prefix_iff_eq_append.mp grows).symm

/-- What is told of the cursor in a step is what the engine has more of it. -/
theorem Step.reveals_told (step : Step s act t) {more : List Event}
    (told : t.session.engine.reveals = s.session.engine.reveals ++ more) :
    (BusySession.told ⟨s, act, t⟩).filter Event.isReveal = more := by
  rw [Engine.reveals_eq, Engine.reveals_eq, step.events, List.filter_append] at told
  exact List.append_cancel_left told

/-- A cursor is told when a click is led to its file, and it is put there. -/
theorem Step.of_told {file : Path} {offset : Nat} (step : Step s act t)
    (mem : .revealCursor file offset ∈ told ⟨s, act, t⟩) :
    ∃ call reply progress, act = .resumes call reply progress ∧ call ∈ s.ongoing ∧
      ∃ position b, call.stage.Leads reply file position ∧ t.session.buffer = some b ∧
        b.path.same file = true ∧ b.cursor = offset ∧
        offset = Text.charOffset b.content position := by
  have told : .revealCursor file offset ∈ (told ⟨s, act, t⟩).filter Event.isReveal :=
    List.mem_filter.mpr ⟨mem, rfl⟩
  have silent (same : t.session.engine.reveals = s.session.engine.reveals) : False := by
    rw [step.reveals_told (same.trans (List.append_nil _).symm)] at told
    cases told
  cases step with
  | starts action => exact (silent (action.start_reveals s.session)).elim
  | edits | moves => exact (silent rfl).elim
  | resumes before after call waits reply =>
    have step := Step.resumes before after call waits reply
    cases call.stage.resume_reveals s.session reply with
    | quiet same => exact (silent same).elim
    | @reveals path position b leads told' shown own cursor =>
      rw [step.reveals_told told', List.mem_singleton] at told
      cases told
      exact ⟨call, reply, _, rfl, waits ▸ List.mem_append_cons_self, position, b, leads, shown,
        own, rfl, cursor⟩

/-! ## Every run -/

theorem inRange_of_run (run : Run Step (idle session) moves s) (inRange : session.InRange) :
    s.session.InRange ∧ ∀ call ∈ s.ongoing, call.stage.InRange := by
  refine run.keeps (P := fun _ s => s.session.InRange ∧ ∀ call ∈ s.ongoing, call.stage.InRange)
    ⟨inRange, fun _ mem => nomatch mem⟩ fun {moves s act t} known step => ?_
  obtain ⟨inRange, fits⟩ := known
  refine ⟨?_, fun call mem => ?_⟩
  · cases step with
    | starts action => exact (Action.start_inRange inRange action).1
    | edits content cursor => exact .map (fun b => Nat.min_le_right ..) rfl
    | moves offset => exact .map (fun b => Nat.min_le_right ..) rfl
    | resumes before after call waits reply =>
      exact (Stage.resume_inRange inRange (fits call (waits ▸ List.mem_append_cons_self)) reply).1
  · cases step.comes mem with
    | waited mem => exact fits call mem
    | starts next => exact (Action.start_inRange inRange call.action).2 _ next
    | goesOn mem _ _ reply next => exact (Stage.resume_inRange inRange (fits _ mem) reply).2 _ next

/-- The call of a number is a click, and it was answered with a byte position of a file. -/
def ClickAnswered (moves : List (Move BusySession Act)) (number : Nat) (path : Path)
    (position : Nat) :
    Prop :=
  ∃ move ∈ moves, ∃ action click progress,
    move.act = .resumes ⟨number, action, .clicking click⟩ (.ok (.file path position)) progress

/-- A click that reads its file was answered with it. -/
theorem reading_of_run (run : Run Step (idle session) moves s) {call : PendingAction}
    (mem : call ∈ s.ongoing) {path : Path} {position : Nat}
    (reads : call.stage = .loading path (.reveal position)) :
    ClickAnswered moves call.number path position := by
  induction run generalizing call with
  | nil => cases mem
  | @snoc moves s t act earlier step inductionHypothesis =>
    have serves := (orderly_of_run (earlier.snoc step)).serves call mem
    rw [reads] at serves
    cases step.comes mem with
    | waited mem =>
      obtain ⟨move, mem, answered⟩ := inductionHypothesis mem reads
      exact ⟨move, List.mem_append_left _ mem, answered⟩
    | starts next number =>
      rw [reads] at next
      generalize call.action = action at serves next
      cases serves with
      | revealing => cases List.mem_singleton.mp next
    | @goesOn old mem number action reply next =>
      have before := (orderly_of_run earlier).serves old mem
      obtain ⟨own, oldAction, oldStage⟩ := old
      dsimp only at number action before reply next
      subst number action
      rw [reads] at next
      generalize call.action = action at serves before step
      cases serves with
      | revealing =>
        cases before with
        | clicking page x y click =>
          obtain ⟨path', position', rfl, same⟩ := Session.afterClick_next next
          cases same
          exact ⟨_, List.mem_concat_self, _, click, _, rfl⟩
        | revealing => cases reply <;> cases next

/-- Whatever is edited, loaded and clicked, and in whatever order: the cursor lies in the text of
    the buffer, so does that of every snapshot, and so does every offset that the backend is asked
    about.  When a cursor is told in a file, a click was answered with a byte position of this file,
    the buffer shows the file, and its cursor is there: before it are the characters that end within
    so many bytes of the text. -/
theorem cursor_in_text {engine : Engine} (run : Run Step (idle (.start engine)) moves s) :
    (∀ b, s.session.buffer = some b → b.cursor ≤ b.content.length) ∧
    (∀ source, s.session.snapshot = some source → source.cursor ≤ source.content.length) ∧
    (∀ call ∈ s.ongoing, ∀ offset text path,
      call.stage.request = .call (.resolveCursorPosition offset text path) →
        offset ≤ text.length) ∧
    ∀ first move rest, moves = first ++ move :: rest → ∀ file offset,
      .revealCursor file offset ∈ told move →
        ∃ number position b, move.act.number? = some number ∧
          ClickAnswered (first ++ [move]) number file position ∧
          move.after.session.buffer = some b ∧ b.path.same file = true ∧ b.cursor = offset ∧
          offset = Nat.count (fun i => Text.bytesOf b.content (i + 1) ≤ position)
            b.content.length := by
  obtain ⟨inRange, fits⟩ := inRange_of_run run fun b shown => nomatch shown
  refine ⟨inRange, fun source taken => inRange.snapshot taken,
    fun call mem offset text path asks => (fits call mem).asks asks, ?_⟩
  intro first move rest cut file offset mem
  obtain ⟨earlier, step, -⟩ := run.around cut
  obtain ⟨call, reply, progress, act, ongoing, position, b, leads, shown, own, there, counted⟩ :=
    step.of_told mem
  refine ⟨call.number, position, b, by rw [act]; rfl, ?_, shown, own, there,
    counted.trans (Text.charOffset_eq_count ..)⟩
  obtain ⟨number, action, stage⟩ := call
  cases leads with
  | opened click =>
    exact ⟨move, List.mem_concat_self, action, click, progress, act⟩
  | read =>
    obtain ⟨answer, mem, answered⟩ := reading_of_run earlier ongoing rfl
    exact ⟨answer, List.mem_append_left _ mem, answered⟩

end Runs

attribute [local instance] pngDecoder

/-- A click leads to the second byte of a text, which is in the middle of its second character:
    the cursor is put before this character. -/
theorem click_inside_character : ∃ (moves : List (Move BusySession Act)) (s : BusySession),
    Run Step (idle (.start (.start 4))) moves s ∧
    ∃ first move, moves = first ++ [move] ∧ .revealCursor ⟨"a.typ"⟩ 1 ∈ told move ∧
      ∃ number position b, move.act.number? = some number ∧
        ClickAnswered (first ++ [move]) number ⟨"a.typ"⟩ position ∧
        move.after.session.buffer = some b ∧ b.path.same ⟨"a.typ"⟩ = true ∧ b.cursor = 1 ∧
        1 = Nat.count (fun i => Text.bytesOf b.content (i + 1) ≤ position) b.content.length := by
  let path : Path := ⟨"a.typ"⟩
  have nothing : Run Step (idle (.start (.start 4))) [] _ := .nil
  have opened := (nothing.snoc (.starts _ (.openFile path))).snoc
    (.resumes [] [] ⟨0, .openFile path, .loading path .finish⟩ rfl (.ok "aé"))
  have clicked := (opened.snoc (.starts _ (.click 0 1 1))).snoc
    (.resumes [] [] ⟨1, .click 0 1 1, .clicking ⟨⟨1⟩, "aé", 0, 1, 1⟩⟩ rfl (.ok (.file path 2)))
  obtain ⟨first, move, s, run, mem⟩ : ∃ first move s,
      Run Step (idle (.start (.start 4))) (first ++ [move]) s ∧
        .revealCursor path 1 ∈ told move :=
    ⟨_, _, _, clicked, by decide +kernel⟩
  exact ⟨_, s, run, first, move, rfl, mem, (cursor_in_text run).2.2.2 first move [] rfl path 1 mem⟩

end BusySession

end LivePreview
