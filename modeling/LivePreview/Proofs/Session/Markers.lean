import LivePreview.Page.Decoder
import LivePreview.Proofs.Preview.Coupling
import LivePreview.Proofs.Session.Selections

/-!
# Two ways to read the markers

A compile announces its diagnostics as markers on the text that was compiled and stores them.
They can also be read on the text in the buffer, while that is the main document.  As long as the
buffer stays as it was when a compile was called, both tell of the same text
(`markers_after_compile`), but they agree only while the main document is open: those of another
file are announced and stored all the same (`other_file_marked`).
-/

namespace LivePreview

open Preview (Cycle Engine Findings Progress Ticket announced?)
open Session (Action Result Stage)

namespace Preview.Engine

@[simp] theorem startCompile_findings (e : Engine) (source : Snapshot) :
    (e.startCompile source).1.findings = e.findings := by
  simp only [startCompile, setPhase_findings]
  exact say_findings _ _

@[simp] theorem reset_findings (e : Engine) :
    e.reset.findings = ⟨[], [], e.findings.announced ++ [[]]⟩ := by
  simp only [reset, setPhase_findings]
  simp only [findings, emit_events, emit_state, debug_eq, say_events, List.filterMap_append]
  rw [List.append_assoc]
  rfl

theorem follow_findings (e : Engine) (jump : Jump) : (e.follow jump).findings = e.findings := by
  cases jump with
  | file path position => rfl
  | position target => exact emit_findings _ rfl
  | url url => exact emit_findings _ rfl
  | nowhere => exact emit_findings _ rfl

end Preview.Engine

theorem Preview.Click.resume_findings (click : Preview.Click) (e : Engine)
    (reply : Except Failure Jump) : (click.resume e reply).1.findings = e.findings := by
  unfold resume
  split
  · exact e.say_findings _
  · split
    · exact (Engine.emit_findings _ rfl).trans (e.say_findings _)
    · exact (Engine.follow_findings _ _).trans (e.say_findings _)

/-- A compile that goes on is still waited for, or it was answered and its markers announced. -/
theorem Preview.Cycle.resume_passed [ImageDecoder] {c next : Cycle} {e e' : Engine}
    {reply : c.call.Reply} (pending : c.pendingTicket?.isSome)
    (goesOn : c.resume e reply = (e', .waits next)) :
    next.pendingTicket?.isSome ∨
      e.findings.announced.length < e'.findings.announced.length := by
  unfold resume at goesOn
  split at goesOn
  · cases goesOn
  · cases c with
    | persisting source ticket =>
      cases reply with
      | error f => cases goesOn
      | ok done =>
        cases goesOn
        exact .inl rfl
    | compiling source ticket =>
      simp only [Engine.afterCompile] at goesOn
      split at goesOn
      · cases goesOn
        refine .inr ?_
        simp only [Engine.startRender_findings, Engine.replaceDiagnostics_findings]
        split <;> simp
      · cases goesOn
      · cases goesOn
    | _ => cases pending

/-- Whether the markers that are stored are those that were announced last, and are put onto
    `text`. -/
structure Preview.Findings.On (found : Findings) (text : String) : Prop where
  told : found.announced.getLast? = some found.markers
  own : found.markers = Marker.project text found.diagnostics

namespace Session

/-- What the editor shows: the path and the text of the buffer. -/
def shown (s : Session) : Option (Path × String) :=
  s.buffer.map fun b => (b.path, b.content)

/-- The compile that a stage waits for. -/
def Stage.compile? : Stage → Option (Snapshot × Ticket)
  | .cycling cycle _ => cycle.pendingTicket?.map fun ticket => (cycle.source, ticket)
  | _ => none

theorem markers_of_shown {s : Session} {path : Path} {content : String}
    (shown : s.shown = some (path, content)) :
    s.markers =
      if s.isMain path then Marker.project content s.engine.findings.diagnostics else [] := by
  obtain ⟨b, isOpen, same⟩ := Option.map_eq_some_iff.mp shown
  cases same
  rw [markers, isOpen]
  rfl

/-! ## What a step finds out -/

/-- What a step from `s` to `t` makes of the findings and of the main document, if it answers a
    stage that waits for `compile`. -/
inductive Finds (s t : Session) (compile : Option (Snapshot × Ticket)) : Prop
  | nothing (findings : t.engine.findings = s.engine.findings) (main : t.main = s.main)
  | forgets (findings : t.engine.findings = ⟨[], [], s.engine.findings.announced ++ [[]]⟩)
  | reports (source : Snapshot) (ticket : Ticket) (diagnostics : List Diagnostic)
      (own : compile = some (source, ticket)) (current : s.engine.compiles.isCurrent ticket)
      (findings : t.engine.findings = ⟨diagnostics, Marker.project source.content diagnostics,
        s.engine.findings.announced ++ [Marker.project source.content diagnostics]⟩)
      (main : t.main = s.main)

variable {s t : Session} {compile : Option (Snapshot × Ticket)}

theorem content_of_snapshot {source : Snapshot} {path : Path} {content : String}
    (shown : s.shown = some (path, content)) (taken : s.snapshot = some source) :
    source.content = content := by
  obtain ⟨b, isOpen, same⟩ := Option.map_eq_some_iff.mp shown
  obtain ⟨b', isOpen', rfl⟩ := Option.map_eq_some_iff.mp taken
  rw [isOpen] at isOpen'
  obtain rfl := Option.some.inj isOpen'
  exact congrArg Prod.snd same

theorem startCompile_findings (s : Session) (selected : Bool) :
    (s.startCompile selected).1.engine.findings = s.engine.findings := by
  unfold startCompile
  split
  · rfl
  · exact Engine.startCompile_findings ..

theorem startSave_findings (s : Session) (explicit : Bool) (auto : Option AutoSave) :
    (s.startSave explicit auto).1.engine.findings = s.engine.findings := by
  rw [startSave_session]
  split
  · exact Engine.say_findings ..
  · split
    · rfl
    · split
      · exact Engine.emit_findings _ rfl
      · rfl

theorem Action.start_findings (s : Session) (action : Action) :
    (action.start s).1.engine.findings = s.engine.findings := by
  have starts := action.starts s
  generalize action.start s = step at starts ⊢
  cases starts with
  | compiles => exact s.startCompile_findings false
  | renders source => exact s.engine.startRender_findings source none
  | saves explicit => exact s.startSave_findings explicit none
  | notCompilable | nothingToExport => exact Engine.emit_findings _ rfl
  | _ => rfl

theorem afterWrite_findings (s : Session) (save : Save) :
    (s.afterWrite save).engine.findings = s.engine.findings := by
  unfold afterWrite
  split
  · exact (Engine.emit_findings _ rfl).trans (Engine.say_findings ..)
  · exact Engine.say_findings ..

theorem reveal_findings (s : Session) (path : Path) (position : Nat) :
    (s.reveal path position).engine.findings = s.engine.findings := by
  unfold reveal
  split
  · rfl
  · exact Engine.emit_findings _ rfl

theorem Stage.resume_finds [ImageDecoder] (s : Session) (stage : Stage)
    (reply : stage.request.Reply) :
    Finds s (stage.resume s reply).1 stage.compile? := by
  have main (keeps : stage.chooses = false) : (stage.resume s reply).1.main = s.main := by
    have elects := Stage.resume_elects s stage reply
    generalize (stage.resume s reply).1.main = main at elects
    cases elects with
    | keeps | refuses => rfl
    | selects | leaves => cases keeps
  have resumes := stage.resumes s reply
  generalize stage.resume s reply = step at resumes main ⊢
  cases resumes with
  | refused => exact .nothing (Engine.emit_findings _ rfl) rfl
  | enters => exact .forgets (by simp [enter])
  | chooses => exact .forgets (by simp [choose])
  | recompiles =>
    refine .forgets ?_
    rw [startCompile_findings]
    simp [choose]
  | loads => exact .nothing (Engine.say_findings ..) rfl
  | loadsMain =>
    exact .nothing ((startCompile_findings ..).trans (Engine.say_findings ..)) (main rfl)
  | loadsTarget =>
    exact .nothing ((reveal_findings ..).trans (Engine.say_findings ..)) (main rfl)
  | created => exact .nothing (Engine.emit_findings _ rfl) rfl
  | cyclesOn cycle selected reply resumed | concludes cycle selected reply resumed =>
    have found := cycle.resume_findings s.engine reply
    rw [resumed] at found
    rcases found with same | ⟨diagnostics, reports, current, found⟩
    · exact .nothing same rfl
    · cases reports <;>
        exact .reports _ _ diagnostics rfl (by simpa [Cycle.isStale] using current) found rfl
  | unwritten =>
    refine .nothing ?_ (main rfl)
    rw [endSave_session]
    exact Engine.emit_findings _ rfl
  | written =>
    refine .nothing ?_ (main rfl)
    rw [endSave_session]
    exact afterWrite_findings ..
  | savesNext => exact .nothing (startSave_findings ..) (main rfl)
  | stops | persisted => exact .nothing rfl rfl
  | exported =>
    exact .nothing ((Engine.emit_findings _ rfl).trans (Engine.say_findings ..)) rfl
  | reveals click reply leads =>
    have found := click.resume_findings s.engine reply
    rw [leads] at found
    exact .nothing ((reveal_findings ..).trans found) (main rfl)
  | reads click reply leads | clicked click reply leads =>
    have found := click.resume_findings s.engine reply
    rw [leads] at found
    exact .nothing found rfl

/-! ## Where a compile comes from -/

/-- Where a compile comes from that is waited for after a step from `s` to `t`: the stage before
    waited for it already, or it was started on what the editor shows. -/
inductive Owes (s t : Session) (earlier : Option (Snapshot × Ticket)) (source : Snapshot)
    (ticket : Ticket) : Prop
  | goesOn (waited : earlier = some (source, ticket))
  | starts (shown : t.snapshot = some source) (newest : t.engine.compiles.latest = ticket.number)
      (later : s.engine.compiles.latest < ticket.number)

theorem startCompile_owes {r : Session} {selected : Bool} {next : Stage} {source : Snapshot}
    {ticket : Ticket} {earlier : Option (Snapshot × Ticket)}
    (before : s.engine.compiles.latest ≤ r.engine.compiles.latest)
    (goesOn : next ∈ (r.startCompile selected).2.next)
    (owes : next.compile? = some (source, ticket)) :
    Owes s (r.startCompile selected).1 earlier source ticket := by
  unfold startCompile at goesOn ⊢
  split at goesOn
  · cases goesOn
  · next shown =>
    obtain rfl := List.mem_singleton.mp goesOn
    cases owes
    refine .starts shown ?_ (Nat.lt_succ_of_le before)
    exact congrArg (·.compiles.latest) (r.engine.startCompile_counters _)

theorem Action.start_owes {action : Action} {next : Stage} {source : Snapshot} {ticket : Ticket}
    (goesOn : next ∈ (action.start s).2.next) (owes : next.compile? = some (source, ticket)) :
    Owes s (action.start s).1 none source ticket := by
  have serves := action.start_serves s next goesOn
  have starts := action.starts s
  generalize action.start s = step at starts goesOn ⊢
  cases starts with
  | compiles => exact startCompile_owes (Nat.le_refl _) goesOn owes
  | saves =>
    cases serves with
    | saving => cases owes
  | notCompilable | alreadyMain | nothingToRender | nothingToExport => cases goesOn
  | _ =>
    obtain rfl := List.mem_singleton.mp goesOn
    cases owes

variable [ImageDecoder]

theorem Serves.resume_owes {action : Action} {stage next : Stage} (serves : Serves action stage)
    {reply : stage.request.Reply} {source : Snapshot} {ticket : Ticket}
    (goesOn : next ∈ (stage.resume s reply).2.next)
    (owes : next.compile? = some (source, ticket)) :
    Owes s (stage.resume s reply).1 stage.compile? source ticket := by
  have serves' := serves.resume s reply next goesOn
  have resumes := stage.resumes s reply
  generalize stage.resume s reply = step at resumes goesOn ⊢
  cases resumes with
  | recompiles => exact startCompile_owes s.engine.reset_before.compiles goesOn owes
  | loadsMain path content =>
    exact startCompile_owes (r := s.load path content) (Nat.le_refl _) goesOn owes
  | cyclesOn cycle selected reply resumed =>
    obtain rfl := List.mem_singleton.mp goesOn
    have succeeds := Cycle.succeeds_of_resume resumed
    refine .goesOn ?_
    simp only [Stage.compile?, Option.map_eq_some_iff, Prod.mk.injEq] at owes ⊢
    obtain ⟨ticket, pending, rfl, rfl⟩ := owes
    exact ⟨ticket, succeeds.pendingTicket? pending, succeeds.source.symm, rfl⟩
  | unwritten | written =>
    cases serves with
    | saving => cases goesOn
    | autoSaving => cases serves' <;> cases owes
  | savesNext =>
    cases serves with
    | resting => cases serves' <;> cases owes
  | chooses | created | persisted | reads =>
    obtain rfl := List.mem_singleton.mp goesOn
    cases owes
  | _ => cases goesOn

theorem Stage.resume_passed {stage next : Stage} {reply : stage.request.Reply}
    (owes : stage.compile?.isSome) (goesOn : next ∈ (stage.resume s reply).2.next) :
    next.compile?.isSome ∨ s.engine.findings.announced.length <
      (stage.resume s reply).1.engine.findings.announced.length := by
  cases stage with
  | cycling cycle selected =>
    simp only [compile?, Option.isSome_map] at owes
    simp only [resume, afterCycle] at goesOn ⊢
    split at goesOn
    · next engine next' same =>
      rw [List.mem_singleton.mp goesOn, compile?, Option.isSome_map]
      exact Cycle.resume_passed owes same
    · cases goesOn
  | _ => cases owes

/-- A cycle that ends rendered does not wait for its compile any more. -/
theorem afterCycle_rendered {cycle : Cycle} {selected : Bool} {reply : cycle.call.Reply}
    {report : Preview.RenderReport}
    (ends : (s.afterCycle cycle selected reply).2 = .ended (.cycled (some (.rendered report)))) :
    cycle.pendingTicket? = none := by
  simp only [afterCycle] at ends
  split at ends
  · cases ends
  · next engine outcome same =>
    simp only [Progress.ended.injEq, cycleResult] at ends
    split at ends
    · cases ends
    · cases ends
      obtain ⟨plan, splice, spliced, splices, -⟩ :=
        (cycle.resume_displays s.engine reply).of_rendered (congrArg Prod.snd same)
      cases splices <;> rfl

end Session

namespace BusySession

section Runs

variable [ImageDecoder] {session : Session} {s t u v : BusySession} {act : Act}
  {moves rest : List (Move BusySession Act)}

/-- Where a compile comes from that is waited for after a step. -/
theorem Step.owes (orderly : Orderly s) (step : Step s act t) {call : PendingAction}
    (mem : call ∈ t.ongoing) {source : Snapshot} {ticket : Ticket}
    (owes : call.stage.compile? = some (source, ticket)) :
    (∃ old ∈ s.ongoing, old.stage.compile? = some (source, ticket)) ∨
      t.session.snapshot = some source ∧
        t.session.engine.compiles.latest = ticket.number ∧
        s.session.engine.compiles.latest < ticket.number := by
  cases step.comes mem with
  | waited mem => exact .inl ⟨call, mem, owes⟩
  | starts next =>
    have whence := call.action.start_owes next owes
    cases step
    cases whence with
    | goesOn waited => cases waited
    | starts shown newest later => exact .inr ⟨shown, newest, later⟩
  | @goesOn old known number action reply next =>
    have whence := (orderly.serves old known).resume_owes next owes
    obtain ⟨before, after, -, -, rfl⟩ := step.of_resumes
    cases whence with
    | goesOn waited => exact .inl ⟨old, known, waited⟩
    | starts shown newest later => exact .inr ⟨shown, newest, later⟩

/-- A compile that is waited for holds a ticket that was given out. -/
theorem compiles_of_run (run : Run Step (idle session) moves s) :
    ∀ call ∈ s.ongoing, ∀ source ticket, call.stage.compile? = some (source, ticket) →
      ticket.number ≤ s.session.engine.compiles.latest := by
  induction run with
  | nil => exact fun _ mem => nomatch mem
  | snoc earlier step inductionHypothesis =>
    intro call mem source ticket owes
    rcases step.owes (orderly_of_run earlier) mem owes with ⟨old, mem, waited⟩ | ⟨-, newest, -⟩
    · exact Nat.le_trans (inductionHypothesis old mem source ticket waited) step.before.compiles
    · exact Nat.le_of_eq newest.symm

/-! ## While the buffer stays as it is -/

/-- What is known after the state `u`, since when the editor has shown `content`. -/
structure Since (u : BusySession) (path : Path) (content : String) (s : BusySession) : Prop where
  shown : s.session.shown = some (path, content)
  /-- A compile that was started since is about what is shown. -/
  own : ∀ call ∈ s.ongoing, ∀ source ticket, call.stage.compile? = some (source, ticket) →
    u.session.engine.compiles.latest < ticket.number → source.content = content
  later : u.session.engine.compiles.latest < s.session.engine.compiles.latest
  found :
    s.session.engine.findings = u.session.engine.findings ∧ s.session.main = u.session.main ∨
      s.session.engine.findings.On content

theorem Since.step {path : Path} {content : String} (since : Since u path content s)
    (orderly : Orderly s) (step : Step s act t)
    (still : t.session.shown = s.session.shown) : Since u path content t where
  shown := still.trans since.shown
  own call mem source ticket owes later := by
    rcases step.owes orderly mem owes with ⟨old, mem, waited⟩ | ⟨taken, -, -⟩
    · exact since.own old mem source ticket waited later
    · exact Session.content_of_snapshot (still.trans since.shown) taken
  later := Nat.lt_of_lt_of_le since.later step.before.compiles
  found := by
    have kept (findings : t.session.engine.findings = s.session.engine.findings)
        (main : t.session.main = s.session.main) :
        t.session.engine.findings = u.session.engine.findings ∧
            t.session.main = u.session.main ∨
          t.session.engine.findings.On content := by
      rw [findings, main]
      exact since.found
    cases step with
    | starts action =>
      exact kept (action.start_findings s.session) (action.start_main s.session)
    | edits | moves => exact kept rfl rfl
    | resumes before after call waits reply =>
      have mem : call ∈ s.ongoing := waits ▸ List.mem_append_cons_self
      cases call.stage.resume_finds s.session reply with
      | nothing findings main => exact kept findings main
      | forgets findings =>
        rw [findings]
        exact .inr ⟨List.getLast?_concat, rfl⟩
      | reports source ticket diagnostics own current findings main =>
        -- the ticket is the latest, so the compile was started since
        have later : u.session.engine.compiles.latest < ticket.number :=
          Preview.Sequence.isCurrent_iff.mp current ▸ since.later
        rw [findings, since.own call mem source ticket own later]
        exact .inr ⟨List.getLast?_concat, rfl⟩

section Call

variable {number : Nat} {progress : Progress Stage Result}

theorem since_of_compile (begun : Run Step (idle session) moves u)
    (call : Step u (.starts number .compile progress) v) {b : Buffer}
    (isOpen : u.session.buffer = some b) : Since u b.path b.content v := by
  have taken : u.session.snapshot = some b.snapshot := congrArg _ isOpen
  have shown : v.session.shown = some (b.path, b.content) := by
    cases call
    simp [Action.start, Session.startCompile, taken, Session.shown, isOpen]
  refine ⟨shown, fun other mem source ticket owes later => ?_, ?_, ?_⟩
  · rcases call.owes (orderly_of_run begun) mem owes with ⟨old, mem, waited⟩ | ⟨taken, -, -⟩
    · exact absurd later (Nat.not_lt_of_le (compiles_of_run begun old mem source ticket waited))
    · exact Session.content_of_snapshot shown taken
  · cases call
    have counters :=
      congrArg (·.compiles.latest) (u.session.engine.startCompile_counters b.snapshot)
    simp only [Action.start, Session.startCompile, taken]
    exact counters ▸ Nat.lt_succ_self _
  · cases call
    exact .inl ⟨Action.start_findings u.session .compile, Action.start_main u.session .compile⟩

theorem since_of_run (begun : Run Step (idle session) moves u)
    (call : Step u (.starts number .compile progress) v) {b : Buffer}
    (isOpen : u.session.buffer = some b) (later : Run Step v rest s)
    (still : ∀ move ∈ rest, move.after.session.shown = move.before.session.shown) :
    Since u b.path b.content s := by
  induction later with
  | nil => exact since_of_compile begun call isOpen
  | snoc earlier step inductionHypothesis =>
    have since := inductionHypothesis fun move mem => still move (List.mem_append_left _ mem)
    exact since.step (orderly_of_run ((begun.snoc call).append earlier)) step
      (still _ List.mem_concat_self)

/-- How many times markers were announced. -/
def announcements (s : BusySession) : Nat :=
  s.session.engine.findings.announced.length

theorem Step.announcements (step : Step s act t) : s.announcements ≤ t.announcements := by
  cases step with
  | starts action =>
    exact Nat.le_of_eq (congrArg (·.announced.length) (action.start_findings s.session)).symm
  | edits | moves => exact Nat.le_refl _
  | resumes before after call waits reply =>
    simp only [BusySession.announcements]
    cases call.stage.resume_finds s.session reply with
    | nothing findings => rw [findings]
    | forgets findings => simp [findings]
    | reports source ticket diagnostics own current findings => simp [findings]

theorem announcements_of_run (run : Run Step s moves t) : s.announcements ≤ t.announcements :=
  run.keeps (P := fun _ t => s.announcements ≤ t.announcements) (Nat.le_refl _)
    fun known step => Nat.le_trans known step.announcements

/-- The compile of a call is still waited for, or its markers were announced. -/
theorem announced_of_run (begun : Run Step (idle session) moves u)
    (call : Step u (.starts number .compile progress) v) (later : Run Step v rest s) :
    ∀ own ∈ s.ongoing, own.number = number → own.action = .compile ∧
      (own.stage.compile?.isSome ∨ u.announcements < s.announcements) := by
  induction later with
  | nil =>
    intro own mem same
    cases call with
    | starts =>
      rcases List.mem_append.mp mem with old | new
      · exact absurd same (Nat.ne_of_lt ((orderly_of_run begun).issued own old))
      · obtain ⟨-, action, next⟩ := mem_goingOn.mp new
        refine ⟨action, .inl ?_⟩
        simp only [Action.start, Session.startCompile] at next
        split at next
        · cases next
        · rw [List.mem_singleton.mp next]
          rfl
  | @snoc rest s t act earlier step inductionHypothesis =>
    intro own mem same
    cases step.comes mem with
    | waited mem =>
      obtain ⟨action, known⟩ := inductionHypothesis own mem same
      exact ⟨action, known.imp_right fun grown => Nat.lt_of_lt_of_le grown step.announcements⟩
    | starts next issued =>
      have grown := issued_of_run ((Run.one call).append earlier)
      have before : number < s.issued := by
        cases call
        exact issued_of_run earlier
      omega
    | @goesOn old known' number' action' reply next =>
      obtain ⟨action, known⟩ := inductionHypothesis old known' (number' ▸ same)
      refine ⟨action'.trans action, ?_⟩
      rcases known with owes | grown
      · refine (Stage.resume_passed owes next).imp_right fun announced => ?_
        obtain ⟨before, after, -, -, rfl⟩ := step.of_resumes
        exact Nat.lt_of_le_of_lt (announcements_of_run ((Run.one call).append earlier)) announced
      · exact .inr (Nat.lt_of_lt_of_le grown step.announcements)

theorem announced_of_rendered (begun : Run Step (idle session) moves u)
    (call : Step u (.starts number .compile progress) v) (later : Run Step v rest s)
    {own : PendingAction} {reply : own.stage.request.Reply} {report : Preview.RenderReport}
    (step : Step s (.resumes own reply (.ended (.cycled (some (.rendered report))))) t)
    (same : own.number = number) : u.announcements < s.announcements := by
  obtain ⟨before, after, split, ends, -⟩ := step.of_resumes
  have mem : own ∈ s.ongoing := split ▸ List.mem_append_cons_self
  obtain ⟨action, known⟩ := announced_of_run begun call later own mem same
  refine known.resolve_left fun owes => ?_
  have serves := (orderly_of_run ((begun.snoc call).append later)).serves own mem
  obtain ⟨number', action', stage⟩ := own
  obtain rfl : action' = .compile := action
  cases serves with
  | compiling cycle =>
    rw [Session.Stage.compile?, Session.afterCycle_rendered ends.symm] at owes
    cases owes

end Call

/-- While the buffer stays as it was when a compile was called, nothing is found out and the markers
    that are read stay the same, or the markers announced last are stored and are put onto the text
    of the buffer.  Then the same markers are read if the buffer is the main document, and none if
    it is another file.  Some were announced if the compile ends with a preview. -/
theorem markers_after_compile {first : List (Move BusySession Act)} {number : Nat}
    {progress : Progress Stage Result} (begun : Run Step (idle session) first u)
    (call : Step u (.starts number .compile progress) v) (later : Run Step v rest s) {b : Buffer}
    (isOpen : u.session.buffer = some b)
    (still : ∀ move ∈ rest, move.after.session.shown = move.before.session.shown) :
    (s.session.engine.findings = u.session.engine.findings ∧
        s.session.markers = u.session.markers ∨
      s.session.engine.findings.On b.content ∧
        s.session.markers =
          (if s.session.isMain b.path then s.session.engine.findings.markers else []) ∧
        (s.session.markers = s.session.engine.findings.markers ↔
          s.session.isMain b.path ∨ s.session.engine.findings.diagnostics = [])) ∧
    ∀ move ∈ rest, move.act.number? = some number →
      (∃ report, move.act.result? = some (.cycled (some (.rendered report)))) →
        u.announcements < s.announcements := by
  have since := since_of_run begun call isOpen later still
  have reads := Session.markers_of_shown since.shown
  constructor
  · rcases since.found with ⟨findings, main⟩ | on
    · have shown : u.session.shown = some (b.path, b.content) := congrArg _ isOpen
      refine .inl ⟨findings, ?_⟩
      rw [reads, Session.markers_of_shown shown, Session.isMain, Session.isMain, main, findings]
    · rw [← on.own] at reads
      refine .inr ⟨on, reads, ?_⟩
      rw [reads]
      split
      · next main => simp [main]
      · next other =>
        rw [on.own, Marker.project]
        simp [other]
  · rintro ⟨before, act, after⟩ mem own ⟨report, ends⟩
    obtain ⟨earlier, others, cut⟩ := List.append_of_mem mem
    obtain ⟨during, step, afterwards⟩ := later.around cut
    cases act with
    | resumes call' reply answer =>
      obtain rfl := Act.result?_resumes.mp ends
      have announced := announced_of_rendered begun call during step (Option.some.inj own)
      exact Nat.lt_of_lt_of_le announced
        (announcements_of_run ((Run.one step).append afterwards))
    | starts number' action answer =>
      obtain rfl : number' = number := Option.some.inj own
      have taken : number' < v.issued := by cases call; exact Nat.lt_succ_self _
      change Step before (.starts number' action answer) after at step
      obtain rfl : number' = before.issued := by cases step; rfl
      exact absurd (issued_of_run during) (Nat.not_le_of_lt taken)
    | edits | moves => cases own

end Runs

attribute [local instance] pngDecoder

/-- A file is open while `main` is the main document. -/
def editing (main : String) : Session :=
  ⟨.start 4, none, some ⟨main⟩, some (.load ⟨"b.typ"⟩ "text"), false⟩

/-- What a compiler has to say. -/
def complaint : Diagnostic :=
  ⟨⟨1, 1, 1, 3⟩, .error, "unknown variable", []⟩

/-- The file that is open is compiled, and refused. -/
theorem refused_of_compile (main : String) : ∃ progress v rest s,
    Step (idle (editing main)) (.starts 0 .compile progress) v ∧ Run Step v rest s ∧
    (∀ move ∈ rest, move.after.session.shown = move.before.session.shown) ∧ s.ongoing = [] ∧
    s.session.main = some ⟨main⟩ ∧ s.session.shown = some (⟨"b.typ"⟩, "text") ∧
    s.session.engine.findings =
      ⟨[complaint], Marker.project "text" [complaint], [Marker.project "text" [complaint]]⟩ := by
  let source : Snapshot := ⟨⟨"b.typ"⟩, "text", 0⟩
  let persisting : PendingAction := ⟨0, .compile, .cycling (.persisting source ⟨1⟩) false⟩
  let compiling : PendingAction := ⟨0, .compile, .cycling (.compiling source ⟨1⟩) false⟩
  let v : BusySession := ⟨((editing main).startCompile false).1, [persisting], 1⟩
  have call : Step (idle (editing main)) (.starts 0 .compile _) v := .starts _ .compile
  have persisted : Run Step v _ _ := Run.one (.resumes [] [] persisting rfl (.ok ()))
  have refused := persisted.snoc
    (.resumes [] [] compiling rfl (.error (.compile [complaint])))
  refine ⟨_, v, _, _, call, refused, ?_, rfl, rfl, rfl, rfl⟩
  exact List.forall_mem_append.mpr
    ⟨List.forall_mem_singleton.mpr rfl, List.forall_mem_singleton.mpr rfl⟩

/-- The main document is compiled, and what is told of it, stored and read is the same. -/
theorem main_file_marked : ∃ progress v rest s,
    Run Step (idle (editing "b.typ")) [] (idle (editing "b.typ")) ∧
    Step (idle (editing "b.typ")) (.starts 0 .compile progress) v ∧ Run Step v rest s ∧
    (editing "b.typ").buffer = some (.load ⟨"b.typ"⟩ "text") ∧
    (∀ move ∈ rest, move.after.session.shown = move.before.session.shown) ∧
    s.session.engine.findings.markers ≠ [] ∧
    s.session.markers = s.session.engine.findings.markers := by
  obtain ⟨progress, v, rest, s, call, later, still, -, main, -, found⟩ :=
    refused_of_compile "b.typ"
  refine ⟨progress, v, rest, s, .nil, call, later, rfl, still, by simp [found, Marker.project], ?_⟩
  rcases (markers_after_compile .nil call later rfl still).1 with ⟨same, -⟩ | ⟨-, -, agree⟩
  · rw [found] at same
    cases same
  · refine agree.mpr (.inl ?_)
    rw [Session.isMain, main]
    decide

/-- Another file is compiled than the main document: its markers are announced and stored, while
    none are read. -/
theorem other_file_marked : ∃ progress v rest s,
    Step (idle (editing "a.typ")) (.starts 0 .compile progress) v ∧ Run Step v rest s ∧
    (∀ move ∈ rest, move.after.session.shown = move.before.session.shown) ∧ s.ongoing = [] ∧
    s.session.engine.findings.announced = [s.session.engine.findings.markers] ∧
    s.session.engine.findings.markers = [⟨0, 2, .error, "unknown variable"⟩] ∧
    s.session.markers = [] := by
  obtain ⟨progress, v, rest, s, call, later, still, ended, main, shown, found⟩ :=
    refused_of_compile "a.typ"
  refine ⟨progress, v, rest, s, call, later, still, ended, by rw [found], ?_, ?_⟩
  · rw [found]
    decide +kernel
  · have other : s.session.isMain ⟨"b.typ"⟩ = false := by
      rw [Session.isMain, main]
      decide
    rw [Session.markers_of_shown shown, other]
    rfl

end BusySession

end LivePreview
