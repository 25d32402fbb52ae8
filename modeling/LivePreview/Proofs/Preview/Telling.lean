import LivePreview.Proofs.Preview.Showing
import LivePreview.Proofs.Preview.View

/-!
# What the engine tells of its steps

A step is put together from sections that change the state and tell of it in one go: a
phase is entered, diagnostics are replaced, pages are spliced in.  `Engine.Tells` says what
holds of a section and of sections put together: a view that follows the events catches up
with the engine, every slot that changed is announced, and positions are on pages of the
list as it was announced.  Every step of an operation tells of itself
(`BusyEngine.Step.announces`).
-/

namespace LivePreview

/-- Whether a position is on one of `count` pages, or on the first page if there are none. -/
def Position.IsOn (p : Position) (count : Nat) : Prop :=
  p.page < count ∨ count = 0 ∧ p.page = 0

theorem Position.clamp_isOn (p : Position) (count : Nat) : (p.clamp count).IsOn count := by
  simp only [IsOn, clamp]
  omega

/-- The number of pages known after an event, if `count` pages were known before. -/
def Event.total (count : Nat) : Event → Nat
  | .pagesChanged _ total => total
  | _ => count

namespace Preview

/-! ## Positions in a stream of events -/

def pagesAfter (count : Nat) (told : List Event) : Nat :=
  told.foldl Event.total count

/-- Every position that is told is on one of the pages known by then. -/
def Points (count : Nat) : List Event → Prop
  | [] => True
  | event :: told =>
    (∀ p, event = .positionChanged p → p.IsOn count) ∧ Points (event.total count) told

theorem Points.append {count : Nat} {told more : List Event} (points : Points count told)
    (rest : Points (pagesAfter count told) more) : Points count (told ++ more) := by
  induction told generalizing count with
  | nil => exact rest
  | cons event told inductionHypothesis =>
    exact ⟨points.1, inductionHypothesis points.2 rest⟩

theorem Points.isOn {count : Nat} {earlier later : List Event} {p : Position}
    (points : Points count (earlier ++ .positionChanged p :: later)) :
    p.IsOn (pagesAfter count earlier) := by
  induction earlier generalizing count with
  | nil => exact points.1 p rfl
  | cons event earlier inductionHypothesis => exact inductionHypothesis points.2

/-! ## Sections -/

/-- `e.Tells told e'`: on the way from `e` to `e'` the engine tells `told`. -/
structure Engine.Tells (e : Engine) (told : List Event) (e' : Engine) : Prop where
  events : e'.events = e.events ++ told
  /-- A view may be behind: once it has read what it did not read yet, it shows the engine. -/
  catchesUp : ∀ (unread : List Event) (v : View), v.followAll e.state.pages unread = .of e →
    v.followAll e'.state.pages (unread ++ told) = .of e'
  announces : ∀ i, e'.state.pages[i]? ≠ e.state.pages[i]? →
    ∃ indices total, .pagesChanged indices total ∈ told ∧ (i ∈ indices ∨ total ≤ i)
  points : Points e.state.pages.length told
  counts : pagesAfter e.state.pages.length told = e'.state.pages.length
  onPage : e.state.position.IsOn e.state.pages.length →
    e'.state.position.IsOn e'.state.pages.length

/-- The engine tells of all that it does on the way from `e` to `e'`. -/
def Engine.Announces (e e' : Engine) : Prop :=
  ∃ told, e.Tells told e'

namespace Engine

variable {e e' e'' : Engine} {told : List Event}

theorem Tells.append {more : List Event} (tells : e.Tells told e') (next : e'.Tells more e'') :
    e.Tells (told ++ more) e'' where
  events := by rw [next.events, tells.events, List.append_assoc]
  catchesUp unread v shown := by
    rw [← List.append_assoc]
    exact next.catchesUp _ v (tells.catchesUp unread v shown)
  announces i changed := by
    by_cases before : e'.state.pages[i]? = e.state.pages[i]?
    · obtain ⟨indices, total, mem, named⟩ := next.announces i (before ▸ changed)
      exact ⟨indices, total, List.mem_append_right _ mem, named⟩
    · obtain ⟨indices, total, mem, named⟩ := tells.announces i before
      exact ⟨indices, total, List.mem_append_left _ mem, named⟩
  points := tells.points.append (tells.counts ▸ next.points)
  counts := by
    rw [pagesAfter, List.foldl_append]
    exact (congrArg (fun n => pagesAfter n more) tells.counts).trans next.counts
  onPage onPage := next.onPage (tells.onPage onPage)

theorem Announces.trans (first : e.Announces e') (next : e'.Announces e'') : e.Announces e'' := by
  obtain ⟨told, tells⟩ := first
  obtain ⟨more, tells'⟩ := next
  exact ⟨told ++ more, tells.append tells'⟩

/-- Nothing that is seen changes. -/
theorem Announces.silent (events : e'.events = e.events) (seen : View.of e' = View.of e)
    (pages : e'.state.pages = e.state.pages)
    (onPage : e.state.position.IsOn e.state.pages.length →
      e'.state.position.IsOn e.state.pages.length) : e.Announces e' := by
  refine ⟨[], by rw [events, List.append_nil], fun unread v shown => ?_,
    fun i changed => absurd (congrArg (·[i]?) pages) changed, trivial,
    congrArg List.length pages.symm, ?_⟩
  · rw [List.append_nil, pages, seen]
    exact shown
  · rw [pages]
    exact onPage

theorem Announces.refl (e : Engine) : e.Announces e :=
  .silent rfl rfl rfl id

/-- An event is told that leaves the page list alone. -/
theorem Announces.event {event : Event} (events : e'.events = e.events ++ [event])
    (pages : e'.state.pages = e.state.pages)
    (follows : (View.of e).follow e.state.pages event = .of e')
    (keeps : ∀ count, event.total count = count)
    (points : ∀ p, event = .positionChanged p → p.IsOn e.state.pages.length)
    (onPage : e.state.position.IsOn e.state.pages.length →
      e'.state.position.IsOn e.state.pages.length) : e.Announces e' := by
  refine ⟨[event], events, fun unread v shown => ?_,
    fun i changed => absurd (congrArg (·[i]?) pages) changed, ⟨points, trivial⟩,
    (keeps _).trans (congrArg List.length pages.symm), ?_⟩
  · rw [View.followAll_append, pages, shown]
    exact follows
  · rw [pages]
    exact onPage

/-- Slots change, and the event names those that did. -/
theorem Announces.pages {indices : List Nat}
    (events : e'.events = e.events ++ [.pagesChanged indices e'.state.pages.length])
    (phase : e'.state.phase = e.state.phase) (markers : e'.state.markers = e.state.markers)
    (named : ∀ i, i < e'.state.pages.length → i ∉ indices →
      e'.state.pages[i]? = e.state.pages[i]?)
    (onPage : e'.state.position.IsOn e'.state.pages.length) : e.Announces e' := by
  refine ⟨[.pagesChanged indices e'.state.pages.length], events, fun unread v shown => ?_,
    fun i changed => ?_, ⟨(fun p same => nomatch same), trivial⟩, rfl, fun _ => onPage⟩
  · -- what was read from the new page list may be newer than the events it was read for
    have alike := (View.Alike.refl (fun i => e'.state.pages[i]? ≠ e.state.pages[i]?) v).followAll
      unread
    rw [shown] at alike
    rw [View.followAll_append]
    simp only [View.followAll_cons, View.followAll_nil, View.of, ← alike.slots_follow named]
    simp only [View.follow, alike.phase, alike.markers, View.of, phase, markers]
  · refine ⟨indices, _, List.mem_singleton_self _, ?_⟩
    by_contra unnamed
    rw [not_or, Nat.not_le] at unnamed
    exact changed (named i unnamed.2 unnamed.1)

/-! ### What is said, phases and diagnostics -/

theorem say_announces (e : Engine) (lines : List Console.LogLine) : e.Announces (e.say lines) :=
  .silent (e.say_events lines) rfl rfl id

theorem notify_announces (e : Engine) (level : Level) (message : String) :
    e.Announces (e.emit (.notify level message)) :=
  .event (e.emit_events _) rfl rfl (fun _ => rfl) (fun _ same => nomatch same) id

theorem setPhase_announces (e : Engine) (phase : Phase) : e.Announces (e.setPhase phase) := by
  simp only [setPhase]
  split
  · exact .event (emit_events _ _) rfl rfl (fun _ => rfl) (by simp) id
  · next same =>
    refine .silent rfl ?_ rfl id
    simp only [View.of, not_not.mp same]

theorem settlePhase_announces (e : Engine) : e.Announces e.settlePhase :=
  e.setPhase_announces _

theorem fail_announces (e : Engine) (f : Failure) : e.Announces (e.fail f).1 := by
  have stores : e.Announces { e with state := { e.state with lastError := some f.message } } :=
    .silent rfl rfl rfl id
  exact ((stores.trans (setPhase_announces _ .error)).trans (settlePhase_announces _)).trans
    (notify_announces _ .error f.message)

theorem finishCompile_announces (e : Engine) (ticket : Ticket) :
    e.Announces (e.finishCompile ticket) := by
  unfold finishCompile
  split
  · exact .silent rfl rfl rfl id
  · exact .refl e

theorem replaceDiagnostics_announces (e : Engine) (source : Snapshot)
    (diagnostics : List Diagnostic) : e.Announces (e.replaceDiagnostics source diagnostics) :=
  .event (emit_events _ _) rfl rfl (fun _ => rfl) (fun _ same => nomatch same) id

/-! ### Starts and resets -/

theorem startCompile_announces (e : Engine) (source : Snapshot) :
    e.Announces (e.startCompile source).1 := by
  simp only [startCompile, debug_eq]
  refine Announces.trans ?_ (setPhase_announces _ .compiling)
  exact .silent (say_events _ _) rfl rfl id

theorem startRender_announces (e : Engine) (source : Snapshot) (compile : Option Ticket) :
    e.Announces (e.startRender source compile).1 := by
  simp only [startRender]
  refine Announces.trans ?_ (setPhase_announces _ .rendering)
  exact .silent rfl rfl rfl id

theorem reset_announces (e : Engine) : e.Announces e.reset := by
  let cleared : Engine :=
    ({ e with state := { e.state with pages := [], position := .origin } }).emit
      (.pagesChanged [] 0)
  have pages : e.Announces cleared :=
    .pages (emit_events _ _) rfl rfl (fun i bound => nomatch bound) (.inr ⟨rfl, rfl⟩)
  refine (pages.trans ?_).trans (setPhase_announces _ .idle)
  refine .event (?_ : _ = cleared.events ++ [.diagnostics []]) rfl rfl (fun _ => rfl)
    (fun _ same => nomatch same) id
  simp [cleared, events, eventsOf, emit, say]

end Engine

/-! ## Splices -/

section Splices

variable [ImageDecoder]

theorem spliceAll_refused {s : State} {pages : List Page} {f : Failure}
    (refused : (spliceAll s pages).result = .error f) :
    (spliceAll s pages).state.pages = s.pages := by
  unfold spliceAll at refused ⊢
  split
  · rfl
  · next placed =>
    rw [placed] at refused
    dsimp only at refused ⊢
    split at refused
    · rfl
    · cases refused

/-- A full splice that succeeds names every slot. -/
theorem spliceAll_changed {s : State} {pages : List Page} {spliced : Spliced}
    (ok : (spliceAll s pages).result = .ok spliced) :
    spliced.changed = List.range (spliceAll s pages).state.pages.length := by
  have all : s.cache.All fun _ _ => True := fun _ _ => trivial
  obtain ⟨keys, -⟩ := (spliceAll_shows all fun _ _ _ _ => trivial).2 spliced ok
  have length : (spliceAll s pages).state.pages.length = pages.length := by
    simpa using congrArg List.length keys
  rw [length]
  unfold spliceAll at ok
  split at ok
  · cases ok
  · dsimp only at ok
    split at ok
    · cases ok
    · rw [← Except.ok.inj ok]

theorem spliceOne_refused {s : State} {page : Page} {f : Failure}
    (refused : (spliceOne s page).result = .error f) :
    (spliceOne s page).state.pages = s.pages := by
  unfold spliceOne at refused ⊢
  split
  · rfl
  · next slot shown =>
    simp only [shown] at refused
    split at refused
    · rfl
    · split at refused <;> cases refused

/-- The splice of one page names its slot, or changes nothing. -/
theorem spliceOne_changed {s : State} {page : Page} {spliced : Spliced}
    (ok : (spliceOne s page).result = .ok spliced) :
    spliced.changed = [] ∧ (spliceOne s page).state.pages = s.pages ∨
      spliced.changed = [page.index] ∧
        ∃ slot, (spliceOne s page).state.pages = s.pages.set page.index slot := by
  unfold spliceOne at ok ⊢
  split at ok
  · cases ok
  · next old shown =>
    split at ok
    · cases ok
    · next loaded cache loads =>
      dsimp only at ok
      split at ok
      · next same =>
        obtain rfl := Except.ok.inj ok
        exact .inl ⟨rfl, by simp [same]⟩
      · next other =>
        obtain rfl := Except.ok.inj ok
        exact .inr ⟨rfl, ⟨loaded.key, loaded.image⟩, by simp [other]⟩

namespace Cycle.Splices

variable {e : Engine} {c : Cycle} {reply : c.call.Reply} {plan : Plan} {splice : SpliceResult}

theorem frame (splices : Splices e c reply plan splice) :
    ∃ cache slots, splice.state = { e.state with cache := cache, pages := slots } := by
  cases splices with
  | all r cursor pages => exact spliceAll_frame ..
  | one r cursor page => exact spliceOne_frame ..

theorem refused (splices : Splices e c reply plan splice) {f : Failure}
    (failed : splice.result = .error f) : splice.state.pages = e.state.pages := by
  cases splices with
  | all r cursor pages => exact spliceAll_refused failed
  | one r cursor page => exact spliceOne_refused failed

/-- The slots that a splice does not name are as they were. -/
theorem named (splices : Splices e c reply plan splice) {spliced : Spliced}
    (ok : splice.result = .ok spliced) :
    (∀ i, i < splice.state.pages.length → i ∉ spliced.changed →
      splice.state.pages[i]? = e.state.pages[i]?) ∧
    (¬ (plan = .full ∨ spliced.changed ≠ []) → splice.state.pages = e.state.pages) := by
  cases splices with
  | all r cursor pages =>
    refine ⟨fun i bound unnamed => ?_, fun single => absurd (.inl rfl) single⟩
    rw [spliceAll_changed ok, List.mem_range] at unnamed
    exact absurd bound unnamed
  | one r cursor page =>
    rcases spliceOne_changed ok with ⟨nothing, same⟩ | ⟨one, slot, set⟩
    · exact ⟨fun i _ _ => by rw [same], fun _ => same⟩
    · refine ⟨fun i _ unnamed => ?_, fun none => ?_⟩
      · rw [one, List.mem_singleton] at unnamed
        rw [set, List.getElem?_set_ne (Ne.symm unnamed)]
      · rw [one] at none
        simp at none

end Cycle.Splices

end Splices

namespace Engine

/-- Takes a position, and forgets the last failure. -/
def settleOn (e : Engine) (p : Position) : Engine :=
  { e with state := { e.state with position := p, lastError := none } }

def emitIf (e : Engine) (told : Prop) [Decidable told] (event : Event) : Engine :=
  if told then e.emit event else e

@[simp] theorem emitIf_state (e : Engine) (told : Prop) [Decidable told] (event : Event) :
    (e.emitIf told event).state = e.state := by
  unfold emitIf
  split <;> rfl

/-- The position that fits the pages is taken, then pages and position are announced. -/
theorem afterSplice_eq (e : Engine) (cursor : Option Position) (plan : Plan) (spliced : Spliced)
    {p : Position} (fits : p = (cursor.getD e.state.position).clamp e.state.pages.length) :
    ∃ lines, (e.afterSplice cursor plan spliced).1 =
      ((((e.settleOn p).emitIf (plan = .full ∨ spliced.changed ≠ [])
        (.pagesChanged spliced.changed e.state.pages.length)).emitIf
        ((!p.samePoint e.state.position) = true) (.positionChanged p)).settlePhase).say lines := by
  subst fits
  exact ⟨_, rfl⟩

theorem afterSplice_announces {e after : Engine} {plan : Plan} {spliced : Spliced}
    (events : after.events = e.events) (phase : after.state.phase = e.state.phase)
    (markers : after.state.markers = e.state.markers)
    (named : ∀ i, i < after.state.pages.length → i ∉ spliced.changed →
      after.state.pages[i]? = e.state.pages[i]?)
    (unannounced : ¬ (plan = .full ∨ spliced.changed ≠ []) →
      after.state.pages = e.state.pages) (cursor : Option Position) :
    e.Announces (after.afterSplice cursor plan spliced).1 := by
  obtain ⟨p, fits⟩ : ∃ p, p = (cursor.getD after.state.position).clamp after.state.pages.length :=
    ⟨_, rfl⟩
  have onPage : p.IsOn after.state.pages.length := fits ▸ Position.clamp_isOn ..
  obtain ⟨lines, eq⟩ := after.afterSplice_eq cursor plan spliced fits
  rw [eq]
  have pages : e.Announces ((after.settleOn p).emitIf (plan = .full ∨ spliced.changed ≠ [])
      (.pagesChanged spliced.changed after.state.pages.length)) := by
    unfold emitIf
    split
    · refine .pages ?_ phase markers named onPage
      rw [emit_events]
      exact congrArg (· ++ _) events
    · next same =>
      have pages := unannounced same
      refine .silent events ?_ pages fun _ => pages ▸ onPage
      simp only [View.of, settleOn, phase, markers, pages]
  refine ((pages.trans ?_).trans (settlePhase_announces _)).trans (say_announces _ lines)
  conv => arg 2; unfold emitIf
  split
  · refine .event (emit_events _ _) rfl rfl (fun _ => rfl) ?_ id
    rintro _ ⟨⟩
    simpa [settleOn] using onPage
  · exact .refl _

/-- Slots and position may change when a splice succeeds, and nothing changes that is seen if
    it fails. -/
theorem endRender_announces [ImageDecoder] {e : Engine} {c : Cycle} {reply : c.call.Reply}
    {plan : Plan} {splice : SpliceResult} (splices : Cycle.Splices e c reply plan splice)
    (cursor : Option Position) : e.Announces (e.endRender cursor plan splice).1 := by
  obtain ⟨cache, slots, frame⟩ := splices.frame
  have phase : splice.state.phase = e.state.phase := by rw [frame]
  have markers : splice.state.markers = e.state.markers := by rw [frame]
  have position : splice.state.position = e.state.position := by rw [frame]
  have events : (({ e with state := splice.state } : Engine).say splice.lines).events =
      e.events := by
    simp
  unfold endRender
  cases ends : splice.result with
  | error f =>
    have pages := splices.refused ends
    refine Announces.trans (.silent events ?_ pages ?_) (fail_announces _ f)
    · simp only [View.of, say_state, phase, markers, pages]
    · exact fun onPage => position ▸ onPage
  | ok spliced =>
    obtain ⟨named, unannounced⟩ := splices.named ends
    exact afterSplice_announces events phase markers named unannounced cursor

end Engine

/-! ## Steps -/

theorem Engine.follow_announces (e : Engine) (jump : Jump) : e.Announces (e.follow jump) := by
  cases jump with
  | file file position => exact .refl e
  | position target =>
    have onPage := target.clamp_isOn e.state.pages.length
    refine .event (emit_events _ _) rfl rfl (fun _ => rfl) ?_ fun _ => onPage
    rintro _ ⟨⟩
    exact onPage
  | url url =>
    exact .event (emit_events _ _) rfl rfl (fun _ => rfl) (fun _ same => nomatch same) id
  | nowhere => exact e.notify_announces _ _

theorem Click.resume_announces (c : Click) (e : Engine) (reply : Except Failure Jump) :
    e.Announces (c.resume e reply).1 := by
  unfold Click.resume
  split
  · exact e.say_announces _
  · split
    · exact (e.say_announces _).trans (Engine.notify_announces _ _ _)
    · exact (e.say_announces _).trans (Engine.follow_announces _ _)

theorem Demand.start_announces (demand : Demand) (e : Engine) :
    e.Announces (demand.start e).1 := by
  cases demand with
  | compile source => exact e.startCompile_announces source
  | render source => exact e.startRender_announces source none
  | click text page x y => exact .silent rfl rfl rfl id

/-- What is told in a move. -/
def BusyEngine.told (move : Move BusyEngine Act) : List Event :=
  move.after.engine.events.drop move.before.engine.events.length

theorem BusyEngine.told_of_events {move : Move BusyEngine Act} {told : List Event}
    (events : move.after.engine.events = move.before.engine.events ++ told) :
    BusyEngine.told move = told := by
  rw [BusyEngine.told, events, List.drop_left]

variable [ImageDecoder]

theorem Cycle.Takes.announces {e : Engine} {c : Cycle} {reply : c.call.Reply} {step : CycleStep}
    (takes : Takes e c reply step) : e.Announces step.1 := by
  cases takes with
  | unwritten source ticket f | uncompiled source ticket f =>
    exact (e.finishCompile_announces ticket).trans (Engine.fail_announces _ f)
  | passed source ticket diagnostics lines =>
    have finished := (e.finishCompile_announces ticket).trans (Engine.say_announces _ lines)
    have shown := finished.trans (Engine.replaceDiagnostics_announces _ source diagnostics)
    exact shown.trans (Engine.startRender_announces _ source (some ticket))
  | refused source ticket diagnostics =>
    have shown := (e.finishCompile_announces ticket).trans
      (Engine.replaceDiagnostics_announces _ source diagnostics)
    exact shown.trans (Engine.fail_announces _ _)
  | written | located => exact .refl e
  | nowhere | wantsAll | wantsOne => exact e.say_announces _
  | fetchedAll r cursor pages => exact Engine.endRender_announces (.all r cursor pages) cursor
  | fetchedOne r cursor page => exact Engine.endRender_announces (.one r cursor page) cursor
  | _ => exact e.fail_announces _

theorem Cycle.resume_announces (c : Cycle) (e : Engine) (reply : c.call.Reply) :
    e.Announces (c.resume e reply).1 := by
  have resumes := c.resumes e reply
  generalize c.resume e reply = step at resumes ⊢
  cases resumes with
  | dropped => exact e.say_announces _
  | inTime current takes => exact takes.announces

namespace BusyEngine

theorem Step.announces {s t : BusyEngine} {act : Act} (step : Step s act t) :
    s.engine.Announces t.engine := by
  cases step with
  | starts demand => exact demand.start_announces s.engine
  | resets => exact s.engine.reset_announces
  | @resumes before after a waits reply =>
    cases a with
    | cycle c => exact c.resume_announces s.engine reply
    | click c => exact c.resume_announces s.engine reply

theorem Step.tells {s t : BusyEngine} {act : Act} (step : Step s act t) :
    s.engine.Tells (told ⟨s, act, t⟩) t.engine := by
  obtain ⟨events, tells⟩ := step.announces
  have same : told ⟨s, act, t⟩ = events := told_of_events tells.events
  exact same ▸ tells

end BusyEngine

end Preview

end LivePreview
