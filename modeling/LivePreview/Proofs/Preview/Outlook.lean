import LivePreview.Proofs.Preview.Telling

/-!
# What the user sees and is told

The `Outlook` is the part of the engine that a user cares for: the pages, the position, the
last failure, and the messages so far.  `Cycle.Concludes` lists what a reply can do to it: a
cycle that goes on or is dropped leaves it alone, a failure is stored and told once, and only
a cycle that has rendered changes pages and position.
-/

namespace LivePreview

/-- Whether an event is meant for the user: it tells of more than the phase, the diagnostics
    and the pages. -/
def Event.isMessage : Event → Bool
  | .phase _ => false
  | .diagnostics _ => false
  | .pagesChanged _ _ => false
  | _ => true

namespace Preview

structure Outlook where
  pages : List Slot
  position : Position
  lastError : Option String
  /-- The messages told so far, oldest first. -/
  messages : List Event

/-- The outlook once a failure is stored and told. -/
def Outlook.failed (o : Outlook) (f : Failure) : Outlook :=
  { o with
    lastError := some f.message
    messages := o.messages ++ [.notify .error f.message] }

namespace Engine

def outlook (e : Engine) : Outlook :=
  ⟨e.state.pages, e.state.position, e.state.lastError, e.events.filter Event.isMessage⟩

/-- What is told of one kind of event that is meant for the user. -/
theorem filter_messages (e : Engine) {p : Event → Bool}
    (meant : ∀ event, p event = true → event.isMessage = true) :
    e.outlook.messages.filter p = e.events.filter p := by
  rw [outlook, List.filter_filter]
  refine List.filter_congr fun event _ => ?_
  cases kind : p event with
  | true => simp [meant event kind]
  | false => rfl

@[simp] theorem say_outlook (e : Engine) (lines : List Console.LogLine) :
    (e.say lines).outlook = e.outlook := by
  simp [outlook]

theorem emit_outlook (e : Engine) (event : Event) :
    (e.emit event).outlook =
      { e.outlook with messages := e.outlook.messages ++ [event].filter Event.isMessage } := by
  simp [outlook]

theorem emit_silent_outlook (e : Engine) {event : Event} (silent : event.isMessage = false) :
    (e.emit event).outlook = e.outlook := by
  simp [emit_outlook, silent]

@[simp] theorem setPhase_outlook (e : Engine) (phase : Phase) :
    (e.setPhase phase).outlook = e.outlook := by
  simp only [setPhase]
  split
  · exact emit_silent_outlook _ rfl
  · rfl

@[simp] theorem settlePhase_outlook (e : Engine) : e.settlePhase.outlook = e.outlook :=
  setPhase_outlook ..

@[simp] theorem fail_outlook (e : Engine) (f : Failure) :
    (e.fail f).1.outlook = e.outlook.failed f := by
  simp only [fail, notify_eq, emit_outlook, settlePhase_outlook, setPhase_outlook]
  rfl

@[simp] theorem finishCompile_outlook (e : Engine) (ticket : Ticket) :
    (e.finishCompile ticket).outlook = e.outlook := by
  unfold finishCompile
  split <;> rfl

@[simp] theorem replaceDiagnostics_outlook (e : Engine) (source : Snapshot)
    (diagnostics : List Diagnostic) :
    (e.replaceDiagnostics source diagnostics).outlook = e.outlook :=
  emit_silent_outlook _ rfl

@[simp] theorem startCompile_outlook (e : Engine) (source : Snapshot) :
    (e.startCompile source).1.outlook = e.outlook := by
  simp only [startCompile, setPhase_outlook]
  exact say_outlook _ _

@[simp] theorem startRender_outlook (e : Engine) (source : Snapshot) (compile : Option Ticket) :
    (e.startRender source compile).1.outlook = e.outlook := by
  simp only [startRender, setPhase_outlook]
  rfl

/-- After a splice the failure is forgotten, and the user is told of the position unless it is the
    point that it was. -/
theorem afterSplice_outlook (e : Engine) (cursor : Option Position) (plan : Plan)
    (spliced : Spliced) :
    ∃ p told, (told = [.positionChanged p] ∨ told = [] ∧ p.samePoint e.state.position = true) ∧
      (e.afterSplice cursor plan spliced).1.outlook =
        ⟨e.state.pages, p, none, e.outlook.messages ++ told⟩ := by
  obtain ⟨p, fits⟩ : ∃ p, p = (cursor.getD e.state.position).clamp e.state.pages.length :=
    ⟨_, rfl⟩
  obtain ⟨lines, eq⟩ := e.afterSplice_eq cursor plan spliced fits
  have pages : ((e.settleOn p).emitIf (plan = .full ∨ spliced.changed ≠ [])
      (.pagesChanged spliced.changed e.state.pages.length)).outlook =
        ⟨e.state.pages, p, none, e.outlook.messages⟩ := by
    unfold emitIf
    split
    · exact emit_silent_outlook _ rfl
    · rfl
  rw [eq, say_outlook, settlePhase_outlook]
  by_cases moved : (!p.samePoint e.state.position) = true
  · refine ⟨p, [.positionChanged p], .inl rfl, ?_⟩
    rw [emitIf, if_pos moved, emit_outlook, pages]
    rfl
  · refine ⟨p, [], .inr ⟨rfl, by simpa using moved⟩, ?_⟩
    rw [emitIf, if_neg moved, pages, List.append_nil]

@[simp] theorem reset_outlook (e : Engine) :
    e.reset.outlook = ⟨[], .origin, none, e.outlook.messages⟩ := by
  simp only [reset, setPhase_outlook]
  rw [emit_silent_outlook _ rfl, emit_silent_outlook _ rfl, debug_eq, say_outlook]
  rfl

end Engine

/-! ## Replies -/

namespace Cycle

/-- `Concludes e step`: with the engine at `e`, a reply takes a cycle to where `step` says. -/
inductive Concludes (e : Engine) : CycleStep → Prop
  | goesOn {e' : Engine} {next : Cycle} (same : e'.outlook = e.outlook) :
      Concludes e (e', .waits next)
  | dropped {e' : Engine} (same : e'.outlook = e.outlook) : Concludes e (e', .ended .superseded)
  | fails {e' : Engine} (f : Failure) (outlook : e'.outlook = e.outlook.failed f) :
      Concludes e (e', .ended (.failed f.kind))
  | renders {e' : Engine} {report : RenderReport} (pages : List Slot) (p : Position)
      (told : List Event) (positions : ∀ event ∈ told, event = .positionChanged p)
      (outlook : e'.outlook = ⟨pages, p, none, e.outlook.messages ++ told⟩) :
      Concludes e (e', .ended (.rendered report))

theorem Concludes.of_fail {e e' : Engine} (same : e'.outlook = e.outlook) (f : Failure) :
    Concludes e (e'.fail f) :=
  .fails f ((e'.fail_outlook f).trans (congrArg (Outlook.failed · f) same))

variable [ImageDecoder]

theorem endRender_concludes {e : Engine} {c : Cycle} {reply : c.call.Reply} {plan : Plan}
    {splice : SpliceResult} (splices : Splices e c reply plan splice)
    (cursor : Option Position) : Concludes e (e.endRender cursor plan splice) := by
  obtain ⟨cache, slots, frame⟩ := splices.frame
  have position : splice.state.position = e.state.position := by rw [frame]
  have lastError : splice.state.lastError = e.state.lastError := by rw [frame]
  have messages : (Engine.outlook
      (({ e with state := splice.state } : Engine).say splice.lines)).messages =
        e.outlook.messages := by
    rw [Engine.say_outlook]
    rfl
  unfold Engine.endRender
  cases ends : splice.result with
  | error f =>
    refine .of_fail ?_ f
    rw [Engine.say_outlook]
    simp only [Engine.outlook, splices.refused ends, position, lastError, Engine.withState_events]
  | ok spliced =>
    obtain ⟨p, told, positions, outlook⟩ := Engine.afterSplice_outlook
      (({ e with state := splice.state } : Engine).say splice.lines) cursor plan spliced
    rw [messages] at outlook
    refine .renders _ p told (fun event mem => ?_) outlook
    rcases positions with rfl | ⟨rfl, -⟩
    · exact List.mem_singleton.mp mem
    · cases mem

theorem Takes.concludes {e : Engine} {c : Cycle} {reply : c.call.Reply} {step : CycleStep}
    (takes : Takes e c reply step) : Concludes e step := by
  cases takes with
  | passed => exact .goesOn (by simp)
  | written | located => exact .goesOn rfl
  | nowhere | wantsAll | wantsOne => exact .goesOn (e.say_outlook _)
  | fetchedAll r cursor pages => exact endRender_concludes (.all r cursor pages) cursor
  | fetchedOne r cursor page => exact endRender_concludes (.one r cursor page) cursor
  | _ => exact .of_fail (by simp) _

theorem resume_concludes (c : Cycle) (e : Engine) (reply : c.call.Reply) :
    Concludes e (c.resume e reply) := by
  have resumes := c.resumes e reply
  generalize c.resume e reply = step at resumes ⊢
  cases resumes with
  | dropped => exact .dropped (e.say_outlook _)
  | inTime current takes => exact takes.concludes

end Cycle

theorem Demand.start_outlook (demand : Demand) (e : Engine) :
    (demand.start e).1.outlook = e.outlook := by
  cases demand with
  | compile source => exact e.startCompile_outlook source
  | render source => exact e.startRender_outlook source none
  | click text page x y => rfl

/-- Messages are added, and a position among them is the one that is taken. -/
def Outlook.Leads (o o' : Outlook) : Prop :=
  ∃ told, o'.messages = o.messages ++ told ∧ ∀ p, .positionChanged p ∈ told → p = o'.position

theorem Outlook.Leads.of_messages {o o' : Outlook} (same : o'.messages = o.messages) :
    o.Leads o' :=
  ⟨[], by rw [same, List.append_nil], fun _ none => nomatch none⟩

theorem Engine.emit_leads (e : Engine) {event : Event}
    (position : ∀ p, event = .positionChanged p → p = e.state.position) :
    e.outlook.Leads (e.emit event).outlook := by
  refine ⟨[event].filter Event.isMessage, by rw [emit_outlook], fun p mem => ?_⟩
  rw [List.mem_filter, List.mem_singleton] at mem
  exact position p mem.1.symm

theorem Engine.follow_leads (e : Engine) (jump : Jump) :
    e.outlook.Leads (e.follow jump).outlook := by
  cases jump with
  | file file position => exact .of_messages rfl
  | position target =>
    let p := target.clamp e.state.pages.length
    have taken : ∀ q, Event.positionChanged p = .positionChanged q → q = p := by
      rintro _ ⟨⟩
      rfl
    obtain ⟨told, messages, position⟩ :=
      Engine.emit_leads { e with state := { e.state with position := p } } taken
    exact ⟨told, messages, position⟩
  | url url => exact e.emit_leads fun _ same => nomatch same
  | nowhere => exact e.emit_leads fun _ same => nomatch same

theorem Click.resume_leads (c : Click) (e : Engine) (reply : Except Failure Jump) :
    e.outlook.Leads (c.resume e reply).1.outlook := by
  unfold Click.resume
  split
  · exact .of_messages (congrArg Outlook.messages (e.say_outlook _))
  · split
    · rw [← e.say_outlook]
      exact Engine.emit_leads _ fun _ same => nomatch same
    · rw [← e.say_outlook]
      exact Engine.follow_leads _ _

theorem Cycle.Concludes.leads {e : Engine} {step : CycleStep} (concludes : Concludes e step) :
    e.outlook.Leads step.1.outlook := by
  cases concludes with
  | goesOn same => exact .of_messages (congrArg Outlook.messages same)
  | dropped same => exact .of_messages (congrArg Outlook.messages same)
  | fails f outlook =>
    refine ⟨[.notify .error f.message], congrArg Outlook.messages outlook, fun p mem => ?_⟩
    cases List.mem_singleton.mp mem
  | renders pages p told positions outlook =>
    refine ⟨told, congrArg Outlook.messages outlook, fun q mem => ?_⟩
    rw [outlook]
    exact Event.positionChanged.inj (positions _ mem)

variable [ImageDecoder]

theorem BusyEngine.Step.leads {s t : BusyEngine} {act : Act} (step : Step s act t) :
    s.engine.outlook.Leads t.engine.outlook := by
  cases step with
  | starts demand =>
    exact .of_messages (congrArg Outlook.messages (demand.start_outlook s.engine))
  | resets =>
    have outlook := congrArg Outlook.messages s.engine.reset_outlook
    exact .of_messages outlook
  | @resumes before after a waits reply =>
    cases a with
    | cycle c => exact (c.resume_concludes s.engine reply).leads
    | click c => exact c.resume_leads s.engine reply

/-- What is told to the user in a step are the messages that it adds. -/
theorem BusyEngine.Step.messages_told {s t : BusyEngine} {act : Act} (step : Step s act t)
    {added : List Event}
    (messages : t.engine.outlook.messages = s.engine.outlook.messages ++ added) :
    (told ⟨s, act, t⟩).filter Event.isMessage = added := by
  have among := congrArg (List.filter Event.isMessage) step.tells.events
  rw [List.filter_append] at among
  exact List.append_cancel_left (among.symm.trans messages)

end Preview

end LivePreview
