import LivePreview.Proofs.Preview.BusyEngine

/-!
# How an operation goes on

A reply that comes too late ends its operation: only the log gets longer
(`Activity.resume_stale`).  A reply in time ends the operation or takes it to the
stage after, which keeps the tickets it has; a compile cycle is given a ticket for
its render with the answer of the compile (`Activity.resume_advances`).
-/

namespace LivePreview.Preview

theorem Sequence.isCurrent_iff {s : Sequence} {ticket : Ticket} :
    s.isCurrent ticket = true ↔ ticket.number = s.latest := by
  rw [Sequence.isCurrent, beq_iff_eq, eq_comm]

/-! ## Replies that come too late -/

theorem Render.isStale_iff (r : Render) (e : Engine) :
    r.isStale e = false ↔
      (∀ ticket ∈ r.compile, e.compiles.isCurrent ticket) ∧ e.renders.isCurrent r.ticket := by
  cases same : r.compile <;> simp [Render.isStale, same, and_comm]

theorem Cycle.isStale_iff (c : Cycle) (e : Engine) :
    c.isStale e = false ↔ (Activity.cycle c).IsCurrent e.counters := by
  cases c <;>
    simp [Cycle.isStale, Render.isStale_iff, Activity.IsCurrent, Activity.compileTicket?,
      Activity.renderTicket?, Activity.clickTicket?, Activity.pendingTicket?,
      Cycle.pendingTicket?, Activity.render?, Cycle.render?, Engine.counters]

theorem Click.isStale_iff (c : Click) (e : Engine) :
    c.isStale e = false ↔ (Activity.click c).IsCurrent e.counters := by
  simp [Click.isStale, Activity.IsCurrent, Activity.compileTicket?, Activity.renderTicket?,
    Activity.clickTicket?, Activity.pendingTicket?, Activity.render?, Engine.counters]

/-- A reply that comes too late ends the operation, and only the log gets longer. -/
theorem Activity.resume_stale [ImageDecoder] {a : Activity} {e : Engine}
    (stale : ¬ a.IsCurrent e.counters) (reply : a.call.Reply) :
    ∃ lines, a.resume e reply = (e.say lines, .ended a.dropped) := by
  cases a with
  | cycle c =>
    rw [← Cycle.isStale_iff, Bool.not_eq_false] at stale
    refine ⟨[.debug "preview" s!"dropped stale {c.label} result"], ?_⟩
    simp [resume, Cycle.resume, stale, Progress.map, dropped]
  | click c =>
    rw [← Click.isStale_iff, Bool.not_eq_false] at stale
    refine ⟨[.debug "click" s!"dropped stale click #{c.ticket.number}"], ?_⟩
    simp [resume, Click.resume, stale, dropped]

/-- A cycle that ends with another outcome than being superseded has the latest
    tickets. -/
theorem Activity.resume_ended [ImageDecoder] {c : Cycle} {e : Engine} {reply : c.call.Reply}
    {outcome : Outcome} (ended : (Activity.resume e (.cycle c) reply).2 = .ended (.cycle outcome))
    (other : outcome ≠ .superseded) :
    c.isStale e = false ∧ (c.resume e reply).2 = .ended outcome := by
  change (c.resume e reply).2.map Activity.cycle Ending.cycle = .ended (.cycle outcome) at ended
  cases progress : (c.resume e reply).2 with
  | waits next =>
    rw [progress] at ended
    cases ended
  | ended result =>
    rw [progress] at ended
    cases ended
    refine ⟨?_, rfl⟩
    by_contra stale
    rw [Bool.not_eq_false] at stale
    simp only [Cycle.resume, stale, if_true, Progress.ended.injEq] at progress
    exact other progress.symm

/-! ## Replies in time -/

/-- A single page is fetched only for a cursor that is on it. -/
theorem Plan.position_of_single {displayed count index : Nat} {cursor : Option Position}
    (single : Plan.choose displayed count cursor = .single index) :
    ∃ p ∈ cursor, p.page = index := by
  unfold Plan.choose at single
  split at single
  · cases single
  · split at single
    · next p =>
      split at single
      · exact ⟨p, rfl, Plan.single.inj single⟩
      · cases single
    · cases single

namespace Cycle

/-- `Succeeds e c reply next k`: with the engine at `e`, the reply takes the cycle `c` on
    to `next` and leaves the counters at `k`. -/
inductive Succeeds (e : Engine) : (c : Cycle) → c.call.Reply → Cycle → Counters → Prop
  | compiling (source : Snapshot) (ticket : Ticket) :
      Succeeds e (.persisting source ticket) (.ok ()) (.compiling source ticket) e.counters
  | locating (source : Snapshot) (ticket : Ticket) (diagnostics : List Diagnostic) :
      Succeeds e (.compiling source ticket) (.ok diagnostics)
        (.locating ⟨source, some ticket, ⟨e.counters.renders.latest + 1⟩⟩)
        { e.counters with renders := ⟨e.counters.renders.latest + 1⟩ }
  | countingFrom (r : Render) (p : Position) :
      Succeeds e (.locating r) (.ok (some p)) (.counting r (some p)) e.counters
  | counting (r : Render) (reply : Except Failure (Option Position)) :
      Succeeds e (.locating r) reply (.counting r none) e.counters
  | fetchingAll (r : Render) (cursor : Option Position) (count : Nat)
      (full : Plan.choose e.state.pages.length count cursor = .full) :
      Succeeds e (.counting r cursor) (.ok count) (.fetchingAll r cursor) e.counters
  | fetchingPage (r : Render) (cursor : Option Position) (count index : Nat)
      (single : Plan.choose e.state.pages.length count cursor = .single index) :
      Succeeds e (.counting r cursor) (.ok count) (.fetchingPage r cursor index) e.counters

/-- A step of a cycle ends it and leaves the counters alone, or takes it to a stage
    after. -/
inductive Advances (e : Engine) (c : Cycle) (reply : c.call.Reply) : CycleStep → Prop
  | ends {e' : Engine} {outcome : Outcome} (same : e'.counters = e.counters) :
      Advances e c reply (e', .ended outcome)
  | waits {e' : Engine} {next : Cycle} (succeeds : Succeeds e c reply next e'.counters) :
      Advances e c reply (e', .waits next)

theorem Advances.of_fail {c : Cycle} {reply : c.call.Reply} {e e' : Engine}
    (same : e'.counters = e.counters) (f : Failure) : Advances e c reply (e'.fail f) :=
  .ends (by simpa using same)

theorem endRender_advances (c : Cycle) (reply : c.call.Reply) (e : Engine)
    (cursor : Option Position) (plan : Plan) (splice : SpliceResult) :
    Advances e c reply (e.endRender cursor plan splice) := by
  obtain ⟨outcome, ends⟩ := e.endRender_progress cursor plan splice
  have same := e.endRender_counters cursor plan splice
  revert ends same
  generalize e.endRender cursor plan splice = after
  obtain ⟨e', progress⟩ := after
  rintro rfl same
  exact .ends same

variable [ImageDecoder]

theorem Takes.advances {e : Engine} {c : Cycle} {reply : c.call.Reply} {step : CycleStep}
    (takes : Takes e c reply step) : Advances e c reply step := by
  cases takes with
  | written source ticket => exact .waits (.compiling source ticket)
  | passed source ticket diagnostics lines =>
    refine .waits ?_
    simp only [Engine.startRender_counters, Engine.replaceDiagnostics_counters,
      Engine.say_counters, Engine.finishCompile_counters]
    exact .locating source ticket diagnostics
  | located r p => exact .waits (.countingFrom r p)
  | nowhere r reply => exact .waits (.counting r reply)
  | wantsAll r cursor count full => exact .waits (.fetchingAll r cursor count full)
  | wantsOne r cursor count index single =>
    exact .waits (.fetchingPage r cursor count index single)
  | fetchedAll | fetchedOne => exact endRender_advances ..
  | _ => exact .of_fail (by simp) _

theorem resume_advances (c : Cycle) (e : Engine) (reply : c.call.Reply) :
    c.Advances e reply (c.resume e reply) := by
  have resumes := c.resumes e reply
  generalize c.resume e reply = step at resumes ⊢
  cases resumes with
  | dropped => exact .ends rfl
  | inTime current takes => exact takes.advances

theorem succeeds_of_resume {c next : Cycle} {e e' : Engine} {reply : c.call.Reply}
    (resumed : c.resume e reply = (e', .waits next)) : Succeeds e c reply next e'.counters := by
  have advances := c.resume_advances e reply
  rw [resumed] at advances
  cases advances with
  | waits succeeds => exact succeeds

end Cycle

theorem Click.resume_counters (c : Click) (e : Engine) (reply : Except Failure Jump) :
    (c.resume e reply).1.counters = e.counters := by
  unfold Click.resume
  split
  · rfl
  · split <;> simp

namespace Activity

/-- A step of an operation ends it and leaves the counters alone, or takes a cycle with
    the latest tickets to a stage after. -/
inductive Advances (e : Engine) :
    (a : Activity) → a.call.Reply → Engine × Progress Activity Ending → Prop
  | ends {a : Activity} {reply : a.call.Reply} {e' : Engine} {ending : Ending}
      (same : e'.counters = e.counters) : Advances e a reply (e', .ended ending)
  | waits {c next : Cycle} {reply : c.call.Reply} {e' : Engine}
      (current : (Activity.cycle c).IsCurrent e.counters)
      (succeeds : c.Succeeds e reply next e'.counters) :
      Advances e (.cycle c) reply (e', .waits (.cycle next))

theorem resume_advances [ImageDecoder] (a : Activity) (e : Engine) (reply : a.call.Reply) :
    Advances e a reply (a.resume e reply) := by
  by_cases current : a.IsCurrent e.counters
  · cases a with
    | cycle c =>
      have advances := c.resume_advances e reply
      show Advances e (.cycle c) reply
        ((c.resume e reply).1, (c.resume e reply).2.map .cycle .cycle)
      revert advances
      generalize c.resume e reply = step
      rintro (same | succeeds)
      · exact .ends same
      · exact .waits current succeeds
    | click c => exact .ends (c.resume_counters e reply)
  · obtain ⟨lines, dropped⟩ := a.resume_stale current reply
    rw [dropped]
    exact .ends (e.say_counters lines)

end Activity

end LivePreview.Preview
