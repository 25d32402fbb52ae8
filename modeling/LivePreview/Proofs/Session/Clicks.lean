import LivePreview.Page.Decoder
import LivePreview.Proofs.Session.BusySession
import LivePreview.Proofs.Text.Offset
import LivePreview.Proofs.Texts

/-!
# Clicks that overlap

A click that is answered after a newer one was made does nothing but log it.  The file that a
click leads to is read after this was checked: a click that was reading its file when a newer one
was made goes on to load it (`newest_click_followed`).  So the editor ends where the newest click
has led it, unless such a file is read later (`older_file_replaces_newer`).
-/

namespace LivePreview

open Preview (Activity Click Engine Progress)
open Session (Action Result Stage)

namespace Session

/-- Whether the editor, or the preview, is where a jump leads. -/
def At (s : Session) : Jump → Prop
  | .file path position => ∃ b, s.buffer = some b ∧ b.path.same path ∧
      b.cursor = Text.charOffset b.content position
  | .position target => s.engine.state.position = target.clamp s.engine.state.pages.length
  | .url _ => True
  | .nowhere => True

/-- `s.Unmoved t`: from `s` to `t` the buffer and the preview are left alone, and no event is
    told. -/
structure Unmoved (s t : Session) : Prop where
  buffer : t.buffer = s.buffer
  state : t.engine.state = s.engine.state
  events : t.engine.events = s.engine.events

/-- `s.FileRead t`: from `s` to `t` the preview is left alone, and all that is told is the cursor in
    a file, or that it cannot be read. -/
structure FileRead (s t : Session) : Prop where
  state : t.engine.state = s.engine.state
  told : ∃ event, t.engine.events = s.engine.events ++ [event] ∧
    ((∃ path offset, event = .revealCursor path offset) ∨ ∃ text, event = .notify .error text)

variable {s t u : Session}

theorem Unmoved.refl (s : Session) : s.Unmoved s :=
  ⟨rfl, rfl, rfl⟩

theorem Unmoved.trans (first : s.Unmoved t) (next : t.Unmoved u) : s.Unmoved u :=
  ⟨next.buffer.trans first.buffer, next.state.trans first.state, next.events.trans first.events⟩

theorem At.unmoved {jump : Jump} (there : s.At jump) (unmoved : s.Unmoved t) : t.At jump := by
  cases jump with
  | file path position =>
    obtain ⟨b, shown, rest⟩ := there
    exact ⟨b, unmoved.buffer.trans shown, rest⟩
  | position target =>
    rw [At, unmoved.state]
    exact there
  | url | nowhere => trivial

def Action.isClick : Action → Bool
  | .click _ _ _ => true
  | _ => false

/-- Whether a click reads the file that it leads to. -/
def Stage.isReading : Stage → Bool
  | .loading _ (.reveal _) => true
  | _ => false

/-! ## Single steps -/

/-- A click that a newer one has overtaken ends with its answer, and only the log gets longer. -/
theorem afterClick_overtaken {click : Click} (stale : click.isStale s.engine)
    (reply : Except Failure Jump) :
    s.Unmoved (s.afterClick click reply).1 ∧
      (s.afterClick click reply).2 = .ended (.clicked none) := by
  simp only [afterClick, Click.resume, stale, if_true]
  exact ⟨⟨rfl, rfl, Engine.say_events ..⟩, trivial⟩

theorem isOpen_iff {path : Path} :
    s.isOpen path = true ↔ ∃ b, s.buffer = some b ∧ b.path.same path := by
  cases shown : s.buffer <;> simp [isOpen, currentFile, shown]

theorem reveal_at {b : Buffer} {path : Path} (shown : s.buffer = some b) (own : b.path.same path)
    (position : Nat) : (s.reveal path position).At (.file path position) := by
  refine ⟨b.moveCursor (Text.charOffset b.content position), ?_, own, ?_⟩
  · simp [reveal, shown]
  · exact Nat.min_eq_left (Text.charOffset_le ..)

theorem afterClick_at {click : Click} {reply : Except Failure Jump} {jump : Jump}
    (ends : (s.afterClick click reply).2 = .ended (.clicked (some jump))) :
    (s.afterClick click reply).1.At jump := by
  by_cases stale : click.isStale s.engine
  · rw [(afterClick_overtaken stale reply).2] at ends
    cases ends
  · rw [Bool.not_eq_true] at stale
    simp only [afterClick, Click.resume, stale, Bool.false_eq_true, if_false] at ends ⊢
    cases checked : checkJump reply with
    | error f =>
      rw [checked] at ends
      cases ends
    | ok found =>
      rw [checked] at ends
      dsimp only at ends ⊢
      cases found with
      | file path position =>
        dsimp only at ends ⊢
        split at ends
        · next isOpen =>
          cases ends
          rw [if_pos isOpen]
          obtain ⟨b, shown, own⟩ := isOpen_iff.mp isOpen
          exact reveal_at (s := { s with engine := _ }) shown own position
        · cases ends
      | position target =>
        cases ends
        rfl
      | url | nowhere =>
        cases ends
        trivial

theorem afterLoad_at {path : Path} {position : Nat} {reply : Except SystemError String}
    {jump : Jump}
    (ends : (s.afterLoad path (.reveal position) reply).2 = .ended (.clicked (some jump))) :
    (s.afterLoad path (.reveal position) reply).1.At jump := by
  cases reply with
  | error e => cases ends
  | ok content =>
    cases ends
    exact reveal_at (s := s.load path content) (b := .load path content) rfl path.same_refl position

/-- A file that is read for a click leaves the preview alone. -/
theorem afterLoad_fileRead (path : Path) (position : Nat) (reply : Except SystemError String) :
    s.FileRead (s.afterLoad path (.reveal position) reply).1 := by
  cases reply with
  | error e => exact ⟨rfl, _, Engine.emit_events .., .inr ⟨_, rfl⟩⟩
  | ok content =>
    refine ⟨rfl, .revealCursor path (Text.charOffset content position), ?_, .inl ⟨_, _, rfl⟩⟩
    simp [afterLoad, reveal, Buffer.load]

/-- A click that was overtaken while it waited for its answer, or that reads its file, ends with
    what it is answered. -/
theorem Serves.resume_overtaken [ImageDecoder] {action : Action} {stage : Stage}
    (serves : Serves action stage) (clicks : action.isClick) (reply : stage.request.Reply)
    (overtaken : ∀ click, stage = .clicking click → click.isStale s.engine) :
    (stage.resume s reply).2.next = [] ∧ (s.Unmoved (stage.resume s reply).1 ∨
      stage.isReading ∧ s.FileRead (stage.resume s reply).1) := by
  cases serves with
  | clicking page x y click =>
    obtain ⟨unmoved, ends⟩ := afterClick_overtaken (overtaken click rfl) reply
    exact ⟨congrArg Progress.next ends, .inl unmoved⟩
  | revealing page x y path position =>
    refine ⟨?_, .inr ⟨rfl, s.afterLoad_fileRead path position reply⟩⟩
    cases reply <;> rfl
  | _ => cases clicks

/-- A click that ends with a jump has led the editor there. -/
theorem Serves.resume_at [ImageDecoder] {action : Action} {stage : Stage}
    (serves : Serves action stage) (clicks : action.isClick) {reply : stage.request.Reply}
    {jump : Jump} (ends : (stage.resume s reply).2 = .ended (.clicked (some jump))) :
    (stage.resume s reply).1.At jump := by
  cases serves with
  | clicking page x y click => exact afterClick_at ends
  | revealing page x y path position => exact afterLoad_at ends
  | _ => cases clicks

end Session

namespace BusySession

open Session (Unmoved)

section Runs

variable [ImageDecoder] {session : Session} {s t u v : BusySession} {act : Act}
  {moves rest : List (Move BusySession Act)}

/-! ## Clicks under way -/

/-- A click that waits for its answer holds a ticket that was given out. -/
theorem tickets_of_run (run : Run Step (idle session) moves s) :
    ∀ call ∈ s.ongoing, ∀ click, call.stage = .clicking click →
      click.ticket.number ≤ s.session.engine.clicks.latest := by
  induction run with
  | nil => exact fun _ mem => nomatch mem
  | @snoc moves s t act earlier step inductionHypothesis =>
    intro call mem click waits
    cases step.comes mem with
    | waited mem => exact Nat.le_trans (inductionHypothesis call mem click waits) step.before.clicks
    | starts next number =>
      rw [waits] at next
      have serves := call.action.start_serves s.session _ next
      generalize call.action = action at serves next step
      cases serves with
      | clicking page x y =>
        obtain rfl := Stage.clicking.inj (List.mem_singleton.mp next)
        cases step
        exact Nat.le_refl _
    | goesOn mem _ _ reply next =>
      have later := ((orderly_of_run earlier).serves _ mem).resume_isFirst next
      rw [waits] at later
      cases later

section Newer

variable {page : Nat} {x y : Float} {progress : Progress Stage Result}

/-- A click that was under way when a newer one was made comes too late ever after. -/
theorem overtaken_of_run (begun : Run Step (idle session) moves u)
    (click : Step u (.starts u.issued (.click page x y) progress) v) (later : Run Step v rest s)
    {call : PendingAction} (mem : call ∈ u.ongoing) (older : Click)
    (waits : call.stage = .clicking older) : older.isStale s.session.engine := by
  have issued := tickets_of_run begun call mem older waits
  have grown : u.session.engine.clicks.latest + 1 ≤ v.session.engine.clicks.latest := by
    cases click
    exact Nat.le_refl _
  have since : v.session.engine.clicks.latest ≤ s.session.engine.clicks.latest :=
    (before_of_run later).clicks
  have other : s.session.engine.clicks.latest ≠ older.ticket.number := by omega
  simpa [Click.isStale, Preview.Sequence.isCurrent] using other

/-- What is still under way of the clicks before a newer one was under way when it was made. -/
theorem older_of_run (begun : Run Step (idle session) moves u)
    (click : Step u (.starts u.issued (.click page x y) progress) v) (later : Run Step v rest s) :
    ∀ call ∈ s.ongoing, call.number < u.issued → call.action.isClick → call ∈ u.ongoing := by
  induction later with
  | nil =>
    intro call mem older _
    cases click with
    | starts =>
      rcases List.mem_append.mp mem with old | new
      · exact old
      · exact absurd (mem_goingOn.mp new).1 (Nat.ne_of_lt older)
  | @snoc rest s t act earlier step inductionHypothesis =>
    intro call mem older clicks
    cases step.comes mem with
    | waited mem => exact inductionHypothesis call mem older clicks
    | starts next number =>
      have issued := issued_of_run ((Run.one click).append earlier)
      omega
    | @goesOn old mem number action reply next =>
      have known := inductionHypothesis old mem (number ▸ older) (action ▸ clicks)
      have serves := (orderly_of_run begun).serves old known
      rw [(serves.resume_overtaken (action ▸ clicks) reply
        (overtaken_of_run begun click earlier known)).1] at next
      cases next

/-- What the answer to an older click does: nothing, unless its file was being read already when
    the newer click was made. -/
theorem older_of_resumes (begun : Run Step (idle session) moves u)
    (click : Step u (.starts u.issued (.click page x y) progress) v) (later : Run Step v rest s)
    {call : PendingAction} {reply : call.stage.request.Reply} {ends : Progress Stage Result}
    (step : Step s (.resumes call reply ends) t) (older : call.number < u.issued)
    (clicks : call.action.isClick) :
    s.session.Unmoved t.session ∨
      call ∈ u.ongoing ∧ call.stage.isReading ∧ s.session.FileRead t.session := by
  obtain ⟨before, after, split, -, rfl⟩ := step.of_resumes
  have mem : call ∈ s.ongoing := split ▸ List.mem_append_cons_self
  have known := older_of_run begun click later call mem older clicks
  have serves := (orderly_of_run begun).serves call known
  have overtaken := overtaken_of_run begun click later known
  exact (serves.resume_overtaken clicks reply overtaken).2.imp_right
    fun fileRead => ⟨known, fileRead⟩

/-- Under the number of a click there is no other call. -/
theorem own_of_run (begun : Run Step (idle session) moves u)
    (click : Step u (.starts u.issued (.click page x y) progress) v) (later : Run Step v rest s) :
    ∀ call ∈ s.ongoing, call.number = u.issued → call.action = .click page x y := by
  induction later with
  | nil =>
    intro call mem own
    cases click with
    | starts =>
      rcases List.mem_append.mp mem with old | new
      · exact absurd own (Nat.ne_of_lt ((orderly_of_run begun).issued call old))
      · exact (mem_goingOn.mp new).2.1
  | @snoc rest s t act earlier step inductionHypothesis =>
    intro call mem own
    cases step.comes mem with
    | waited mem => exact inductionHypothesis call mem own
    | starts next number =>
      have grown : u.issued + 1 ≤ s.issued := by
        cases click
        exact issued_of_run earlier
      omega
    | goesOn mem number action =>
      rw [action]
      exact inductionHypothesis _ mem (number ▸ own)

theorem at_of_resumes (begun : Run Step (idle session) moves u)
    (click : Step u (.starts u.issued (.click page x y) progress) v) (later : Run Step v rest s)
    {call : PendingAction} {reply : call.stage.request.Reply} {jump : Jump}
    (step : Step s (.resumes call reply (.ended (.clicked (some jump)))) t)
    (own : call.number = u.issued) : t.session.At jump := by
  obtain ⟨before, after, split, ends, rfl⟩ := step.of_resumes
  have mem : call ∈ s.ongoing := split ▸ List.mem_append_cons_self
  have orderly := orderly_of_run ((begun.snoc click).append later)
  have clicks : call.action.isClick := own_of_run begun click later call mem own ▸ rfl
  exact (orderly.serves call mem).resume_at clicks ends.symm

end Newer

theorem unmoved_of_run (run : Run Step s moves t)
    (each : ∀ move ∈ moves, move.before.session.Unmoved move.after.session) :
    s.session.Unmoved t.session := by
  induction run with
  | nil => exact .refl _
  | snoc earlier step inductionHypothesis =>
    have before := inductionHypothesis fun move mem => each move (List.mem_append_left _ mem)
    exact before.trans (each _ List.mem_concat_self)

/-! ## The newest click -/

/-- Whether a move answers a click that was made before a call. -/
def Act.isOlderClick (number : Nat) : Act → Bool
  | .resumes call _ _ => call.number < number && call.action.isClick
  | _ => false

/-- Whether a move answers a click that reads the file it leads to. -/
def Act.isReading : Act → Bool
  | .resumes call _ _ => call.stage.isReading
  | _ => false

/-- Once a newer click was made, the answer to an older one changes nothing, unless that one was
    reading its file at the time: no link is opened and the preview does not move.  When the newest
    click ends with a jump the editor is there, and it stays there while older ones are answered
    that were not reading. -/
theorem newest_click_followed {first : List (Move BusySession Act)} {number page : Nat}
    {x y : Float} {progress : Progress Stage Result} (begun : Run Step (idle session) first u)
    (click : Step u (.starts number (.click page x y) progress) v) (later : Run Step v rest s) :
    (∀ move ∈ rest, move.act.isOlderClick number →
      move.before.session.Unmoved move.after.session ∨
        (∃ call ∈ u.ongoing, move.act.number? = some call.number ∧ call.stage.isReading) ∧
          move.act.isReading ∧ move.before.session.FileRead move.after.session) ∧
    ∀ before t call reply jump t' after,
      rest = before ++ ⟨t, .resumes call reply (.ended (.clicked (some jump))), t'⟩ :: after →
      call.number = number →
      (∀ move ∈ after, move.act.isOlderClick number ∧ ¬ move.act.isReading) →
        s.session.At jump := by
  obtain rfl : number = u.issued := by cases click; rfl
  have overtaken : ∀ move ∈ rest, move.act.isOlderClick u.issued →
      move.before.session.Unmoved move.after.session ∨
        (∃ call ∈ u.ongoing, move.act.number? = some call.number ∧ call.stage.isReading) ∧
          move.act.isReading ∧ move.before.session.FileRead move.after.session := by
    intro ⟨t, act, t'⟩ mem older
    obtain ⟨between, during, step⟩ := later.reach mem
    cases act with
    | resumes call reply ends =>
      obtain ⟨before, clicks⟩ : call.number < u.issued ∧ call.action.isClick := by
        simpa [Act.isOlderClick] using older
      refine (older_of_resumes begun click during step before clicks).imp_right ?_
      rintro ⟨known, reading, fileRead⟩
      exact ⟨⟨call, known, rfl, reading⟩, reading, fileRead⟩
    | _ => cases older
  refine ⟨overtaken, ?_⟩
  intro before t call reply jump t' after cut' own others
  obtain ⟨during, step, afterwards⟩ := later.around cut'
  -- once the newest click has led there, the older ones move nothing
  have there := at_of_resumes begun click during step own
  refine there.unmoved (unmoved_of_run afterwards fun move mem => ?_)
  obtain ⟨older, notReading⟩ := others move mem
  have still : move ∈ rest := by
    rw [cut']
    exact List.mem_append_right _ (List.mem_cons_of_mem _ mem)
  exact (overtaken move still older).resolve_right fun ⟨_, reading, _⟩ => notReading reading

end Runs

attribute [local instance] pngDecoder

/-- A document is shown in the editor. -/
def shown : Session :=
  ⟨.start 4, none, none, some (.load ⟨"a.typ"⟩ "aaaa"), false⟩

/-- Two clicks overlap, and the newer one is answered first.  What the older one finds comes too
    late, and the cursor stays where the newer one has put it. -/
theorem newer_click_answered_first : ∃ first u progress v rest s,
    Run Step (idle shown) first u ∧ Step u (.starts 1 (.click 0 2 2) progress) v ∧
    Run Step v rest s ∧ s.ongoing = [] ∧
    (∃ move ∈ rest, move.act.isOlderClick 1 ∧ move.before.session.Unmoved move.after.session) ∧
    s.session.At (.file ⟨"a.typ"⟩ 2) := by
  let older : PendingAction := ⟨0, .click 0 1 1, .clicking ⟨⟨1⟩, "aaaa", 0, 1, 1⟩⟩
  let newer : PendingAction := ⟨1, .click 0 2 2, .clicking ⟨⟨2⟩, "aaaa", 0, 2, 2⟩⟩
  let u : BusySession := ⟨(shown.startClick 0 1 1).1, [older], 1⟩
  let v : BusySession := ⟨(u.session.startClick 0 2 2).1, [older, newer], 2⟩
  have begun : Run Step (idle shown) _ u := Run.one (.starts _ (.click 0 1 1))
  have click : Step u (.starts 1 (.click 0 2 2) _) v := .starts u (.click 0 2 2)
  have followed : Run Step v _ _ := Run.one (.resumes [older] [] newer rfl
    (.ok (.file ⟨"a.typ"⟩ 2)))
  have answered := followed.snoc (.resumes [] [] older rfl
    (.ok (.file ⟨"b.typ"⟩ 1)))
  obtain ⟨overtaken, there⟩ := newest_click_followed begun click answered
  have late := overtaken _ List.mem_concat_self rfl
  refine ⟨_, _, _, _, _, _, begun, click, answered, rfl,
    ⟨_, List.mem_concat_self, rfl, ?_⟩, ?_⟩
  · exact late.resolve_right fun ⟨_, reading, _⟩ => nomatch reading
  · refine there [] v newer _ _ _ _ rfl rfl fun move mem => ?_
    obtain rfl := List.mem_singleton.mp mem
    exact ⟨rfl, nofun⟩

/-- A click leads to a file that is not open.  While the file is read a newer click is made and
    followed in the open one.  Then the file comes: it replaces the buffer, and its cursor is
    told. -/
theorem older_file_replaces_newer : ∃ first u progress v rest s,
    Run Step (idle shown) first u ∧ Step u (.starts 1 (.click 0 2 2) progress) v ∧
    Run Step v rest s ∧
    (∀ move ∈ first ++ rest, move.act.number? = some 0 ∨ move.act.number? = some 1) ∧
    (∃ move ∈ rest, move.act.number? = some 1 ∧
      move.act.result? = some (.clicked (some (.file ⟨"a.typ"⟩ 2)))) ∧
    s.ongoing = [] ∧ ¬ s.session.At (.file ⟨"a.typ"⟩ 2) ∧
    s.session.engine.events = [.revealCursor ⟨"a.typ"⟩ 2, .revealCursor ⟨"b.typ"⟩ 1] := by
  let older : PendingAction := ⟨0, .click 0 1 1, .clicking ⟨⟨1⟩, "aaaa", 0, 1, 1⟩⟩
  let reading : PendingAction := ⟨0, .click 0 1 1, .loading ⟨"b.typ"⟩ (.reveal 1)⟩
  let newer : PendingAction := ⟨1, .click 0 2 2, .clicking ⟨⟨2⟩, "aaaa", 0, 2, 2⟩⟩
  let u : BusySession :=
    ⟨((shown.startClick 0 1 1).1.afterClick ⟨⟨1⟩, "aaaa", 0, 1, 1⟩ (.ok (.file ⟨"b.typ"⟩ 1))).1,
      [reading], 1⟩
  let v : BusySession := ⟨(u.session.startClick 0 2 2).1, [reading, newer], 2⟩
  have made : Run Step (idle shown) _ _ := Run.one (.starts _ (.click 0 1 1))
  have begun : Run Step (idle shown) _ u := made.snoc (.resumes [] [] older
    rfl (.ok (.file ⟨"b.typ"⟩ 1)))
  have click : Step u (.starts 1 (.click 0 2 2) _) v := .starts u (.click 0 2 2)
  have followed : Run Step v _ _ := Run.one (.resumes [reading] [] newer rfl
    (.ok (.file ⟨"a.typ"⟩ 2)))
  have read := followed.snoc (.resumes [] [] reading rfl (.ok "bbbb"))
  refine ⟨_, _, _, _, _, _, begun, click, read, ?_,
    ⟨_, List.mem_append_left _ (List.mem_singleton_self _), rfl, rfl⟩, rfl, ?_, rfl⟩
  · simp [Act.number?, reading, older, newer, idle]
  · rintro ⟨b, loaded, own, -⟩
    obtain rfl := Option.some.inj loaded
    revert own
    decide +kernel

end BusySession

end LivePreview
