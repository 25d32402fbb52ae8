import LivePreview.Page.Decoder
import LivePreview.Proofs.Preview.Ledger

/-!
# The order of tickets

A reply that comes too late changes nothing, and what came too late once comes too
late ever after.  So the answers of compiles and the fetched pages are taken in the
order in which their tickets were given out, and nothing from before a reset is
taken after it (`BusyEngine.taken_in_ticket_order`).
-/

namespace LivePreview.Preview

/-- Whether a ticket was given out and is not the latest. -/
def Sequence.Overtaken (s : Sequence) (ticket : Ticket) : Prop :=
  ticket.number ≤ s.latest ∧ ¬ s.isCurrent ticket

theorem Sequence.Overtaken.later {s s' : Sequence} {ticket : Ticket}
    (overtaken : s.Overtaken ticket) (grows : s.latest ≤ s'.latest) : s'.Overtaken ticket := by
  simp only [Overtaken, isCurrent_iff] at overtaken ⊢
  omega

/-- Whether an operation holds a ticket that was given out with the counters at `k`. -/
def Activity.BegunBy (a : Activity) (k : Counters) : Prop :=
  (∃ ticket ∈ a.compileTicket?, ticket.number ≤ k.compiles.latest) ∨
    (∃ ticket ∈ a.renderTicket?, ticket.number ≤ k.renders.latest) ∨
      ∃ ticket ∈ a.clickTicket?, ticket.number ≤ k.clicks.latest

/-- Once the sequences are past a reset, what was begun before it is not current. -/
theorem Activity.BegunBy.stale {a : Activity} {e : Engine} {k : Counters}
    (begun : a.BegunBy e.counters) (past : e.reset.counters.Before k) : ¬ a.IsCurrent k := by
  have compiles := past.compiles
  have renders := past.renders
  have clicks := past.clicks
  simp only [Engine.reset_counters, Sequence.invalidate] at compiles renders clicks
  rintro ⟨compile, render, click⟩
  rcases begun with ⟨ticket, holds, old⟩ | ⟨ticket, holds, old⟩ | ⟨ticket, holds, old⟩
  · have latest := Sequence.isCurrent_iff.mp (compile ticket holds)
    omega
  · have latest := Sequence.isCurrent_iff.mp (render ticket holds)
    omega
  · have latest := Sequence.isCurrent_iff.mp (click ticket holds)
    omega

namespace Cycle

/-- The ticket of a compile whose source is being written. -/
def writes? : Cycle → Option Ticket
  | .persisting _ ticket => some ticket
  | _ => none

/-- The ticket of a compile whose answer is waited for. -/
def answers? : Cycle → Option Ticket
  | .compiling _ ticket => some ticket
  | _ => none

/-- The render whose pages are waited for. -/
def fetches? : Cycle → Option Render
  | .fetchingAll r _ => some r
  | .fetchingPage r _ _ => some r
  | _ => none

end Cycle

theorem Activity.compileTicket?_of_pending {a : Activity} {ticket : Ticket}
    (pending : ticket ∈ a.pendingTicket?) : ticket ∈ a.compileTicket? := by
  simp [compileTicket?, Option.mem_def.mp pending]

/-- An operation that starts holds new tickets only. -/
theorem Demand.start_new (demand : Demand) (e : Engine) :
    (∀ ticket ∈ (demand.start e).2.compileTicket?, e.counters.compiles.latest < ticket.number ∧
      ticket.number ≤ (demand.start e).1.counters.compiles.latest) ∧
    (∀ ticket ∈ (demand.start e).2.renderTicket?, e.counters.renders.latest < ticket.number ∧
      ticket.number ≤ (demand.start e).1.counters.renders.latest) ∧
    ∀ ticket ∈ (demand.start e).2.clickTicket?, e.counters.clicks.latest < ticket.number ∧
      ticket.number ≤ (demand.start e).1.counters.clicks.latest := by
  cases demand with
  | compile source =>
    simp [start, Engine.startCompile_cycle, Engine.startCompile_counters, Activity.compileTicket?,
      Activity.renderTicket?, Activity.clickTicket?, Activity.pendingTicket?, Activity.render?,
      Cycle.pendingTicket?, Cycle.render?]
  | render source =>
    simp [start, Engine.startRender_cycle, Engine.startRender_counters, Activity.compileTicket?,
      Activity.renderTicket?, Activity.clickTicket?, Activity.pendingTicket?, Activity.render?,
      Cycle.pendingTicket?, Cycle.render?]
  | click text page x y =>
    simp [start, Engine.startClick_click, Engine.startClick_counters, Activity.compileTicket?,
      Activity.renderTicket?, Activity.clickTicket?, Activity.pendingTicket?, Activity.render?]

namespace Ledger

/-- The compiles whose source is not written yet, and those that were called then. -/
def writes : Ledger where
  sequence := Counters.compiles
  held a := match a with
    | .cycle c => c.writes?
    | .click _ => none
  recorded := Cycle.writes?
  grows before := before.compiles
  starts {demand e} ticket holds := by
    cases demand with
    | compile source => exact (Demand.start_new (.compile source) e).1 ticket holds
    | render source => cases holds
    | click text page x y => cases holds
  goesOn succeeds ticket holds := by cases succeeds <;> cases holds
  own _ records := records
  current {c k} current ticket records := by
    cases c with
    | persisting source ticket => exact Sequence.isCurrent_iff.mp (current.1 _ records)
    | _ => cases records

/-- The compiles that are not answered yet, and those whose answers were taken. -/
def answers : Ledger where
  sequence := Counters.compiles
  held := Activity.pendingTicket?
  recorded := Cycle.answers?
  grows before := before.compiles
  starts {demand e} ticket holds :=
    (demand.start_new e).1 ticket (Activity.compileTicket?_of_pending holds)
  goesOn succeeds ticket holds := by
    cases succeeds with
    | compiling source ticket => exact .inl ⟨holds, rfl⟩
    | _ => cases holds
  own {c} ticket records := by
    cases c with
    | compiling source ticket => exact records
    | _ => cases records
  current {c k} current ticket records := by
    cases c with
    | compiling source ticket => exact Sequence.isCurrent_iff.mp (current.1 _ records)
    | _ => cases records

/-- The renders that have no pages yet, and those whose pages were taken. -/
def fetches : Ledger where
  sequence := Counters.renders
  held := Activity.renderTicket?
  recorded c := c.fetches?.map Render.ticket
  grows before := before.renders
  starts {demand e} := (demand.start_new e).2.1
  goesOn succeeds ticket holds := by
    cases succeeds with
    | compiling source ticket => cases holds
    | locating source compile =>
      cases holds
      exact .inr ⟨Nat.lt_succ_self _, Nat.le_refl _⟩
    | _ => exact .inl ⟨holds, rfl⟩
  own {c} ticket records := by
    cases c with
    | fetchingAll r cursor => exact records
    | fetchingPage r cursor index => exact records
    | _ => cases records
  current {c k} current ticket records := by
    cases c with
    | fetchingAll r cursor => exact Sequence.isCurrent_iff.mp (current.2.1 _ records)
    | fetchingPage r cursor index => exact Sequence.isCurrent_iff.mp (current.2.1 _ records)
    | _ => cases records

/-- The compiles whose render has no pages yet, and those whose pages were taken. -/
def compiledFetches : Ledger where
  sequence := Counters.compiles
  held := Activity.compileTicket?
  recorded c := c.fetches?.bind Render.compile
  grows before := before.compiles
  starts {demand e} := (demand.start_new e).1
  goesOn succeeds ticket holds := by
    cases succeeds with
    | _ => exact .inl ⟨holds, rfl⟩
  own {c} ticket records := by
    cases c with
    | fetchingAll r cursor => exact records
    | fetchingPage r cursor index => exact records
    | _ => cases records
  current {c k} current ticket records := by
    cases c with
    | fetchingAll r cursor => exact Sequence.isCurrent_iff.mp (current.1 _ records)
    | fetchingPage r cursor index => exact Sequence.isCurrent_iff.mp (current.1 _ records)
    | _ => cases records

def clicks : Ledger where
  sequence := Counters.clicks
  held := Activity.clickTicket?
  recorded _ := none
  grows before := before.clicks
  starts {demand e} := (demand.start_new e).2.2
  goesOn _ _ holds := nomatch holds
  own _ records := nomatch records
  current _ _ records := nomatch records

/-- A ticket that an operation holds while it waits was given out. -/
theorem issued_of_run [ImageDecoder] (l : Ledger) {engine : Engine}
    {moves : List (Move BusyEngine BusyEngine.Act)} {s : BusyEngine}
    (run : Run BusyEngine.Step (.idle engine) moves s) {a : Activity} (waits : a ∈ s.waiting)
    {ticket : Ticket} (holds : ticket ∈ l.held a) :
    ticket.number ≤ (l.sequence s.engine.counters).latest :=
  (sound_of_run run).issued ticket.number
    (List.mem_append_right _ (List.mem_flatMap.mpr ⟨a, waits, mem_numbers.mpr holds⟩))

end Ledger

namespace BusyEngine

section Replies

variable [ImageDecoder]

/-- Every operation that waits holds tickets that were given out. -/
theorem isIssued_of_run {engine : Engine} {moves : List (Move BusyEngine Act)} {s : BusyEngine}
    (run : Run Step (.idle engine) moves s) {a : Activity} (waits : a ∈ s.waiting) :
    a.IsIssued s.engine.counters :=
  ⟨fun _ => Ledger.compiledFetches.issued_of_run run waits,
    fun _ => Ledger.fetches.issued_of_run run waits,
    fun _ => Ledger.clicks.issued_of_run run waits⟩

/-! ## Replies that come too late -/

/-- The reply to an operation is dropped: the operation ends without a result, it calls
    nobody any more, and the engine only says so in its log. -/
structure Drops (s : BusyEngine) (a : Activity) (progress : Progress Activity Ending)
    (t : BusyEngine) : Prop where
  ended : progress = .ended a.dropped
  state : t.engine.state = s.engine.state
  events : t.engine.events = s.engine.events
  counters : t.engine.counters = s.engine.counters
  waiting : ∃ before after, s.waiting = before ++ a :: after ∧ t.waiting = before ++ after

theorem Step.drops {s t : BusyEngine} {a : Activity} {reply : a.call.Reply}
    {progress : Progress Activity Ending} (step : Step s (.resumes a reply progress) t)
    (stale : ¬ a.IsCurrent s.engine.counters) : Drops s a progress t := by
  cases step with
  | @resumes before after _ waits reply =>
    obtain ⟨lines, dropped⟩ := a.resume_stale stale reply
    rw [dropped]
    exact ⟨rfl, Engine.say_state .., Engine.say_events .., Engine.say_counters ..,
      before, after, waits, by simp⟩

theorem Step.of_resets {s t : BusyEngine} (step : Step s .resets t) :
    t = { s with engine := s.engine.reset } := by
  cases step
  rfl

theorem overtaken_later {s t : BusyEngine} {moves : List (Move BusyEngine Act)}
    (run : Run Step s moves t) (ticket : Ticket) :
    (s.engine.compiles.Overtaken ticket → t.engine.compiles.Overtaken ticket) ∧
    (s.engine.renders.Overtaken ticket → t.engine.renders.Overtaken ticket) ∧
    (s.engine.clicks.Overtaken ticket → t.engine.clicks.Overtaken ticket) :=
  have before := before_of_run run
  ⟨fun overtaken => overtaken.later before.compiles,
    fun overtaken => overtaken.later before.renders,
    fun overtaken => overtaken.later before.clicks⟩

/-- What was begun before a reset is not current after it. -/
theorem stale_after_reset {s t : BusyEngine} {moves : List (Move BusyEngine Act)} {a : Activity}
    (run : Run Step { s with engine := s.engine.reset } moves t)
    (begun : a.BegunBy s.engine.counters) : ¬ a.IsCurrent t.engine.counters :=
  begun.stale (before_of_run run)

end Replies

/-! ## The order -/

/-- The compiles whose answers were taken, oldest first. -/
def answers (moves : List (Move BusyEngine Act)) : List Ticket :=
  moves.filterMap fun move => move.act.taken?.bind Cycle.answers?

/-- The renders whose pages were taken, oldest first. -/
def fetches (moves : List (Move BusyEngine Act)) : List Render :=
  moves.filterMap fun move => move.act.taken?.bind Cycle.fetches?

theorem answers_number (moves : List (Move BusyEngine Act)) :
    (answers moves).map Ticket.number = Ledger.answers.record moves :=
  List.map_filterMap ..

theorem fetches_number (moves : List (Move BusyEngine Act)) :
    (fetches moves).map (fun render => render.ticket.number) = Ledger.fetches.record moves := by
  rw [fetches, List.map_filterMap]
  refine List.filterMap_congr fun move _ => ?_
  cases taken : move.act.taken? with
  | none => simp [Ledger.entry, taken]
  | some c => cases fetched : c.fetches? <;> simp [Ledger.entry, Ledger.fetches, taken, fetched]

theorem fetches_compile (moves : List (Move BusyEngine Act)) :
    ((fetches moves).filterMap Render.compile).map Ticket.number =
      Ledger.compiledFetches.record moves := by
  rw [fetches, List.filterMap_filterMap, List.map_filterMap]
  refine List.filterMap_congr fun move _ => ?_
  cases taken : move.act.taken? with
  | none => simp [Ledger.entry, taken]
  | some c =>
    cases fetched : c.fetches? <;> simp [Ledger.entry, Ledger.compiledFetches, taken, fetched]

/-- In whatever order operations start and go on, and whatever is replied: replies that
    come too late are dropped, what was overtaken stays so, answers and pages are taken
    in the order of their tickets, and what was begun before a reset is dropped after it. -/
theorem taken_in_ticket_order [ImageDecoder] {engine : Engine} {moves : List (Move BusyEngine Act)}
    {s : BusyEngine} (run : Run Step (.idle engine) moves s) :
    (∀ u a reply progress v, ⟨u, .resumes a reply progress, v⟩ ∈ moves →
      ¬ a.IsCurrent u.engine.counters → Drops u a progress v) ∧
    (∀ a ∈ s.waiting, a.IsIssued s.engine.counters) ∧
    (∀ later t, Run Step s later t → ∀ ticket,
      (s.engine.compiles.Overtaken ticket → t.engine.compiles.Overtaken ticket) ∧
      (s.engine.renders.Overtaken ticket → t.engine.renders.Overtaken ticket) ∧
      (s.engine.clicks.Overtaken ticket → t.engine.clicks.Overtaken ticket)) ∧
    (answers moves).Pairwise (fun ticket later => ticket.number < later.number) ∧
    (fetches moves).Pairwise (fun render later => render.ticket.number < later.ticket.number) ∧
    ((fetches moves).filterMap Render.compile).Pairwise
      (fun ticket later => ticket.number < later.number) ∧
    ∀ early u v late, moves = early ++ ⟨u, .resets, v⟩ :: late →
      ∀ u' a reply progress v', ⟨u', .resumes a reply progress, v'⟩ ∈ late →
        a.BegunBy u.engine.counters → Drops u' a progress v' := by
  refine ⟨?_, fun a waits => isIssued_of_run run waits, fun later t continued ticket =>
    overtaken_later continued ticket, ?_, ?_, ?_, ?_⟩
  · intro u a reply progress v member stale
    obtain ⟨_, _, step⟩ := run.reach member
    exact step.drops stale
  · have increasing := Ledger.answers.record_increasing run
    rw [← answers_number, List.pairwise_map] at increasing
    exact increasing
  · have increasing := Ledger.fetches.record_increasing run
    rw [← fetches_number, List.pairwise_map] at increasing
    exact increasing
  · have increasing := Ledger.compiledFetches.record_increasing run
    rw [← fetches_compile, List.pairwise_map] at increasing
    exact increasing
  · intro early u v late cut u' a reply progress v' member begun
    obtain ⟨_, reset, continued⟩ := run.around cut
    obtain rfl : v = { u with engine := u.engine.reset } := reset.of_resets
    obtain ⟨_, afterReset, step⟩ := continued.reach member
    exact step.drops (stale_after_reset afterReset begun)

attribute [local instance] pngDecoder

/-- A compile is overtaken by a second one while its source is written, and the answers
    of the second and of a third are taken. -/
theorem answers_of_overtaking_compiles :
    ∃ moves s, Run Step (.idle (.start 4)) moves s ∧
      (∃ u a reply progress v, ⟨u, .resumes a reply progress, v⟩ ∈ moves ∧ Drops u a progress v) ∧
      answers moves = [⟨2⟩, ⟨3⟩] ∧
      (answers moves).Pairwise fun ticket later => ticket.number < later.number := by
  let source : Snapshot := ⟨default, "", 0⟩
  have nothing : Run Step (.idle (.start 4)) [] _ := .nil
  have overtaken := ((nothing.snoc
    (.starts _ (.compile source))).snoc
    (.starts _ (.compile source))).snoc
    (.resumes [] (a := .cycle (.persisting source ⟨1⟩)) rfl (.ok ()))
  have second := (overtaken.snoc
    (.resumes [] (a := .cycle (.persisting source ⟨2⟩)) rfl (.ok ()))).snoc
    (.resumes [] (a := .cycle (.compiling source ⟨2⟩)) rfl (.ok []))
  have answered := ((second.snoc
    (.starts _ (.compile source))).snoc
    (.resumes [_] (a := .cycle (.persisting source ⟨3⟩)) rfl (.ok ()))).snoc
    (.resumes [_] (a := .cycle (.compiling source ⟨3⟩)) rfl (.ok []))
  have inOrder := taken_in_ticket_order answered
  exact ⟨_, _, answered, ⟨_, .cycle (.persisting source ⟨1⟩), .ok (), _, _,
    List.mem_of_getElem? (i := 2) rfl, inOrder.1 _ _ _ _ _ (List.mem_of_getElem? (i := 2) rfl)
      fun current => absurd (current.1 _ rfl) (by decide)⟩, rfl, inOrder.2.2.2.1⟩

end BusyEngine

end LivePreview.Preview
