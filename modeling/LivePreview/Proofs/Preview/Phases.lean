import LivePreview.Page.Decoder
import LivePreview.Proofs.Preview.Showing
import LivePreview.Proofs.Preview.TicketOrder

/-!
# Phases and the pending compile

A dropped reply touches neither the phase nor the pending compile, so whatever is
newer has to leave both in order on each of its ways out.  `Turns` lists what a reply in
time does to them.  After every step the pending compile is the one that waits with the
latest ticket, and the phase says so (`BusyEngine.InStep`); when nothing waits, the engine
is idle (`BusyEngine.phase_follows_operations`).
-/

namespace LivePreview.Preview

/-- What the engine says it is doing: its phase, and the compile it waits for. -/
structure Status where
  phase : Phase
  pending : Option Ticket
  deriving DecidableEq, Repr

namespace Status

/-- Nothing is rendered: a compile is waited for, or nothing is. -/
def settled (pending : Option Ticket) : Status :=
  ⟨if pending.isSome then .compiling else .idle, pending⟩

/-- The pending compile once another one is answered, if that is another one. -/
def without (pending ticket : Option Ticket) : Option Ticket :=
  if pending = ticket then none else pending

@[simp] theorem without_none (pending : Option Ticket) : without pending none = pending := by
  unfold without
  split
  · next same => exact same.symm
  · rfl

@[simp] theorem without_self (pending : Option Ticket) : without pending pending = none :=
  if_pos rfl

end Status

/-! ## Moves of the engine -/

namespace Engine

def status (e : Engine) : Status :=
  ⟨e.state.phase, e.state.pendingCompile⟩

@[simp] theorem say_status (e : Engine) (lines : List Console.LogLine) :
    (e.say lines).status = e.status := rfl

@[simp] theorem emit_status (e : Engine) (event : Event) : (e.emit event).status = e.status := rfl

@[simp] theorem setPhase_status (e : Engine) (phase : Phase) :
    (e.setPhase phase).status = ⟨phase, e.status.pending⟩ := by
  simp [status]

@[simp] theorem settlePhase_status (e : Engine) :
    e.settlePhase.status = .settled e.status.pending :=
  setPhase_status ..

@[simp] theorem fail_status (e : Engine) (f : Failure) :
    (e.fail f).1.status = .settled e.status.pending := by
  simp only [status, fail_state]
  rfl

@[simp] theorem finishCompile_status (e : Engine) (ticket : Ticket) :
    (e.finishCompile ticket).status =
      ⟨e.status.phase, Status.without e.status.pending (some ticket)⟩ := by
  unfold finishCompile Status.without
  by_cases same : e.state.pendingCompile = some ticket
  · simp [status, same]
  · simp [status, same]

@[simp] theorem replaceDiagnostics_status (e : Engine) (source : Snapshot)
    (diagnostics : List Diagnostic) :
    (e.replaceDiagnostics source diagnostics).status = e.status := rfl

@[simp] theorem startCompile_status (e : Engine) (source : Snapshot) :
    (e.startCompile source).1.status =
      .settled (some ⟨e.counters.compiles.latest + 1⟩) := by
  simp only [startCompile, setPhase_status]
  rfl

@[simp] theorem startRender_status (e : Engine) (source : Snapshot) (compile : Option Ticket) :
    (e.startRender source compile).1.status = ⟨.rendering, e.status.pending⟩ := by
  simp only [startRender, setPhase_status]
  rfl

@[simp] theorem startClick_status (e : Engine) (text : String) (page : Nat) (x y : Float) :
    (e.startClick text page x y).1.status = e.status := rfl

@[simp] theorem afterSplice_status (e : Engine) (cursor : Option Position) (plan : Plan)
    (spliced : Spliced) :
    (e.afterSplice cursor plan spliced).1.status = .settled e.status.pending := by
  simp only [afterSplice, debug_eq, say_status, settlePhase_status]
  split <;> split <;> rfl

/-- However a splice ends, the render is over. -/
theorem endRender_status (e : Engine) (cursor : Option Position) (plan : Plan)
    {splice : SpliceResult}
    (frame : ∃ cache pages, splice.state = { e.state with cache, pages }) :
    (e.endRender cursor plan splice).1.status = .settled e.status.pending := by
  obtain ⟨cache, pages, frame⟩ := frame
  have same : (({ e with state := splice.state } : Engine).say splice.lines).status = e.status := by
    simp [status, frame]
  unfold endRender
  split
  · rw [fail_status, same]
  · rw [afterSplice_status, same]

@[simp] theorem follow_status (e : Engine) (jump : Jump) : (e.follow jump).status = e.status := by
  cases jump <;> rfl

@[simp] theorem reset_status (e : Engine) : e.reset.status = .settled none := by
  simp only [reset, setPhase_status]
  rfl

end Engine

/-! ## Replies in time -/

namespace Cycle

/-- `Turns e c step`: with the engine at `e`, a reply in time takes the cycle `c` to where
    `step` says. -/
inductive Turns (e : Engine) : Cycle → CycleStep → Prop
  /-- The cycle goes on to its next call. -/
  | goesOn {c next : Cycle} {e' : Engine} (status : e'.status = e.status)
      (counters : e'.counters = e.counters) (pending : next.pendingTicket? = c.pendingTicket?)
      (render : next.render? = c.render?) : Turns e c (e', .waits next)
  /-- The answer of a compile is shown, and its render begins. -/
  | renders {source : Snapshot} {ticket : Ticket} {e' : Engine}
      (status : e'.status = ⟨.rendering, Status.without e.status.pending (some ticket)⟩)
      (counters : e'.counters =
        { e.counters with renders := ⟨e.counters.renders.latest + 1⟩ }) :
      Turns e (.compiling source ticket)
        (e', .waits (.locating ⟨source, some ticket, ⟨e.counters.renders.latest + 1⟩⟩))
  /-- The cycle is over, and nothing of its own is pending any more. -/
  | ends {c : Cycle} {e' : Engine} {outcome : Outcome}
      (status : e'.status = .settled (Status.without e.status.pending c.pendingTicket?))
      (counters : e'.counters = e.counters) : Turns e c (e', .ended outcome)

theorem Turns.of_fail {c : Cycle} {e e' : Engine}
    (pending : e'.status.pending = Status.without e.status.pending c.pendingTicket?)
    (counters : e'.counters = e.counters) (f : Failure) : Turns e c (e'.fail f) :=
  .ends ((e'.fail_status f).trans (congrArg Status.settled pending))
    ((e'.fail_counters f).trans counters)

theorem endRender_turns {c : Cycle} (rendering : c.pendingTicket? = none) (e : Engine)
    (cursor : Option Position) (plan : Plan) {splice : SpliceResult}
    (frame : ∃ cache pages, splice.state = { e.state with cache, pages }) :
    Turns e c (e.endRender cursor plan splice) := by
  obtain ⟨outcome, ends⟩ := e.endRender_progress cursor plan splice
  have status := e.endRender_status cursor plan frame
  have counters := e.endRender_counters cursor plan splice
  revert ends status counters
  generalize e.endRender cursor plan splice = after
  obtain ⟨e', progress⟩ := after
  rintro rfl status counters
  refine .ends ?_ counters
  rw [rendering, Status.without_none, status]

variable [ImageDecoder]

theorem Takes.turns {e : Engine} {c : Cycle} {reply : c.call.Reply} {step : CycleStep}
    (takes : Takes e c reply step) : Turns e c step := by
  cases takes with
  | unwritten source ticket f =>
    exact .of_fail (by rw [Engine.finishCompile_status]; rfl) (by simp) f
  | passed source ticket diagnostics lines =>
    refine .renders ?_ ?_
    · rw [Engine.startRender_status, Engine.replaceDiagnostics_status, Engine.say_status,
        Engine.finishCompile_status]
    · simp only [Engine.startRender_counters, Engine.replaceDiagnostics_counters,
        Engine.say_counters, Engine.finishCompile_counters]
  | refused source ticket diagnostics =>
    refine .of_fail ?_ (by simp) _
    rw [Engine.replaceDiagnostics_status, Engine.finishCompile_status]
    rfl
  | uncompiled source ticket f =>
    exact .of_fail (by rw [Engine.finishCompile_status]; rfl) (by simp) f
  | fetchedAll => exact endRender_turns rfl e _ .full (spliceAll_frame ..)
  | fetchedOne => exact endRender_turns rfl e _ _ (spliceOne_frame ..)
  | written | located | nowhere | wantsAll | wantsOne => exact .goesOn rfl rfl rfl rfl
  | _ => exact .of_fail (Status.without_none _).symm rfl _

theorem resume_turns {c : Cycle} {e : Engine} (current : c.isStale e = false)
    (reply : c.call.Reply) : Turns e c (c.resume e reply) :=
  (resume_takes current reply).turns

end Cycle

theorem Click.resume_status (c : Click) (e : Engine) (reply : Except Failure Jump) :
    (c.resume e reply).1.status = e.status := by
  unfold Click.resume
  split
  · rfl
  · split
    · rfl
    · exact Engine.follow_status ..

/-- A stale operation is neither the latest compile nor part of a render that is wanted. -/
theorem Activity.unheard_of_stale {a : Activity} {e : Engine} (stale : ¬ a.IsCurrent e.counters) :
    (∀ ticket ∈ a.pendingTicket?, ¬ e.compiles.isCurrent ticket) ∧
      ∀ r ∈ a.render?, r.isStale e = true := by
  cases a with
  | cycle c =>
    rw [← Cycle.isStale_iff, Bool.not_eq_false] at stale
    cases c <;>
      simp_all [Cycle.isStale, pendingTicket?, Cycle.pendingTicket?, render?, Cycle.render?]
  | click c => constructor <;> intro _ held <;> cases held

/-! ## Status and waiting operations -/

namespace BusyEngine

/-- The latest compile is not answered yet: its cycle waits for the source to be written,
    or for the answer. -/
def Awaits (s : BusyEngine) (ticket : Ticket) : Prop :=
  s.engine.compiles.isCurrent ticket ∧ ∃ a ∈ s.waiting, ticket ∈ a.pendingTicket?

/-- A render is under way whose reply will be taken. -/
def Renders (s : BusyEngine) : Prop :=
  ∃ a ∈ s.waiting, ∃ r ∈ a.render?, r.isStale s.engine = false

/-- What the engine says it is doing is what is going on. -/
structure InStep (s : BusyEngine) : Prop where
  pending : ∀ ticket, s.engine.state.pendingCompile = some ticket ↔ s.Awaits ticket
  passing : s.engine.state.phase ≠ .error
  compiling : s.engine.state.phase = .compiling → s.engine.state.pendingCompile.isSome
  awaiting : s.engine.state.pendingCompile.isSome →
    s.engine.state.phase = .compiling ∨ s.engine.state.phase = .rendering
  rendering : s.engine.state.phase = .rendering → s.Renders

namespace InStep

variable {s t : BusyEngine} {before after : List Activity} {a : Activity}

/-- Nothing has begun. -/
theorem idle (cacheCapacity : Nat) : InStep (.idle (.start cacheCapacity)) where
  pending ticket := by
    constructor
    · intro pending
      cases pending
    · rintro ⟨-, a, waits, -⟩
      cases waits
  passing phase := nomatch phase
  compiling phase := nomatch phase
  awaiting pending := nomatch pending
  rendering phase := nomatch phase

theorem of_settled {pending : Option Ticket} (status : s.engine.status = .settled pending)
    (awaits : ∀ ticket, pending = some ticket ↔ s.Awaits ticket) : InStep s := by
  obtain ⟨phase, rfl⟩ := Status.mk.inj status
  cases missing : s.engine.state.pendingCompile with
  | none =>
    simp only [missing, Option.isSome_none] at phase
    constructor <;> simp_all
  | some ticket =>
    simp only [missing, Option.isSome_some, if_true] at phase
    constructor <;> simp_all

theorem of_rendering {pending : Option Ticket} (status : s.engine.status = ⟨.rendering, pending⟩)
    (awaits : ∀ ticket, pending = some ticket ↔ s.Awaits ticket) (renders : s.Renders) :
    InStep s := by
  obtain ⟨phase, rfl⟩ := Status.mk.inj status
  constructor <;> simp_all

/-- A step that leaves the status alone, and with it who waits for what. -/
theorem of_same (inStep : InStep s) (status : t.engine.status = s.engine.status)
    (awaits : ∀ ticket, t.Awaits ticket ↔ s.Awaits ticket) (renders : s.Renders → t.Renders) :
    InStep t := by
  obtain ⟨phase, pending⟩ := Status.mk.inj status
  refine ⟨fun ticket => ?_, ?_, ?_, ?_, ?_⟩
  · rw [pending, awaits]
    exact inStep.pending ticket
  · rw [phase]
    exact inStep.passing
  · rw [phase, pending]
    exact inStep.compiling
  · rw [phase, pending]
    exact inStep.awaiting
  · rw [phase]
    exact fun rendering => renders (inStep.rendering rendering)

/-! ### Starts and resets -/

/-- An operation joins that nothing is pending for. -/
theorem awaits_of_joins (joined : t.waiting = s.waiting ++ [a])
    (same : t.engine.compiles = s.engine.compiles) (unheard : a.pendingTicket? = none)
    (ticket : Ticket) : t.Awaits ticket ↔ s.Awaits ticket := by
  rw [Awaits, Awaits, same, joined]
  constructor
  · rintro ⟨current, b, mem, held⟩
    rcases List.mem_append.mp mem with old | new
    · exact ⟨current, b, old, held⟩
    · rw [List.mem_singleton.mp new, unheard] at held
      cases held
  · rintro ⟨current, b, mem, held⟩
    exact ⟨current, b, List.mem_append_left _ mem, held⟩

theorem starts (inStep : InStep s) (demand : Demand) :
    InStep ⟨(demand.start s.engine).1, s.waiting ++ [(demand.start s.engine).2]⟩ := by
  cases demand with
  | compile source =>
    have counters := s.engine.startCompile_counters source
    have latest : (s.engine.startCompile source).1.compiles.latest =
        s.engine.counters.compiles.latest + 1 := congrArg (fun k => k.compiles.latest) counters
    refine of_settled (s.engine.startCompile_status source) fun ticket => ?_
    constructor
    · intro issued
      cases issued
      exact ⟨Sequence.isCurrent_iff.mpr latest.symm, (Demand.start s.engine (.compile source)).2,
        List.mem_concat_self, rfl⟩
    · rintro ⟨current, -⟩
      have number := Sequence.isCurrent_iff.mp current
      exact congrArg (fun n => some (Ticket.mk n)) (number.trans latest).symm
  | render source =>
    have counters := s.engine.startRender_counters source none
    have compiles : (s.engine.startRender source none).1.compiles = s.engine.compiles :=
      congrArg Counters.compiles counters
    have latest : (s.engine.startRender source none).1.renders.latest =
        s.engine.counters.renders.latest + 1 := congrArg (fun k => k.renders.latest) counters
    refine of_rendering (s.engine.startRender_status source none) (fun ticket => ?_) ?_
    · exact (inStep.pending ticket).trans (awaits_of_joins rfl compiles rfl ticket).symm
    · refine ⟨_, List.mem_concat_self, _, rfl, ?_⟩
      apply (Render.isStale_iff _ _).mpr
      constructor
      · intro ticket held
        cases held
      · exact Sequence.isCurrent_iff.mpr latest.symm
  | click text page x y =>
    refine inStep.of_same rfl (awaits_of_joins rfl rfl rfl) ?_
    rintro ⟨a, waits, r, renders, current⟩
    exact ⟨a, List.mem_append_left _ waits, r, renders, current⟩

/-- After a reset no ticket that was given out is the latest. -/
theorem resets {record : List Nat} (sound : Ledger.answers.Sound record s) :
    InStep { s with engine := s.engine.reset } := by
  refine of_settled s.engine.reset_status fun ticket => ?_
  constructor
  · intro pending
    cases pending
  · rintro ⟨current, a, waits, held⟩
    have issued := sound.issued ticket.number
      (List.mem_append_right _ (List.mem_flatMap.mpr ⟨a, waits, Ledger.mem_numbers.mpr held⟩))
    have number := Sequence.isCurrent_iff.mp current
    have latest := congrArg (fun k => k.compiles.latest) s.engine.reset_counters
    simp only [Ledger.answers, Sequence.invalidate, Engine.counters] at issued latest number
    omega

/-! ### Replies -/

/-- An operation leaves that nothing was pending for. -/
theorem awaits_of_leaves (waits : s.waiting = before ++ a :: after)
    (left : t.waiting = before ++ after) (same : t.engine.compiles = s.engine.compiles)
    (unheard : ∀ ticket ∈ a.pendingTicket?, ¬ s.engine.compiles.isCurrent ticket)
    (ticket : Ticket) : t.Awaits ticket ↔ s.Awaits ticket := by
  rw [Awaits, Awaits, same, left]
  constructor
  · rintro ⟨current, b, mem, held⟩
    exact ⟨current, b, mem_of_beside waits mem, held⟩
  · rintro ⟨current, b, mem, held⟩
    rcases eq_or_beside waits mem with rfl | old
    · exact absurd current (unheard ticket held)
    · exact ⟨current, b, old, held⟩

/-- The latest compile is answered, so none is awaited any more. -/
theorem not_awaits_of_answered {record : List Nat} (sound : Ledger.answers.Sound record s)
    (waits : s.waiting = before ++ a :: after) {ticket : Ticket} (held : ticket ∈ a.pendingTicket?)
    (current : s.engine.compiles.isCurrent ticket) (same : t.engine.compiles = s.engine.compiles)
    (left : ∀ b ∈ t.waiting, b ∈ before ++ after ∨ b.pendingTicket? = none) (other : Ticket) :
    ¬ t.Awaits other := by
  rintro ⟨latest, b, mem, holds⟩
  rw [same] at latest
  -- whatever is awaited has the latest ticket, which only the answered cycle had
  have number := (Sequence.isCurrent_iff.mp latest).trans (Sequence.isCurrent_iff.mp current).symm
  obtain rfl : other = ticket := congrArg Ticket.mk number
  rcases left b mem with old | nothing
  · exact sound.alone waits held old holds
  · rw [nothing] at holds
    cases holds

/-- A cycle goes on with what it held. -/
theorem goesOn (inStep : InStep s) {c next : Cycle} {e' : Engine}
    (waits : s.waiting = before ++ .cycle c :: after) (status : e'.status = s.engine.status)
    (counters : e'.counters = s.engine.counters)
    (pending : next.pendingTicket? = c.pendingTicket?) (render : next.render? = c.render?) :
    InStep ⟨e', before ++ [.cycle next] ++ after⟩ := by
  have compiles : e'.compiles = s.engine.compiles := congrArg Counters.compiles counters
  have renders : e'.renders = s.engine.renders := congrArg Counters.renders counters
  refine inStep.of_same status (fun ticket => ?_) ?_
  · have held : (Activity.cycle next).pendingTicket? = (Activity.cycle c).pendingTicket? := pending
    simp only [Awaits, compiles, waits, List.mem_append, List.mem_cons]
    grind
  · rintro ⟨b, mem, r, known, current⟩
    have unchanged : r.isStale e' = false := by
      simpa only [Render.isStale_iff, compiles, renders] using current
    rcases eq_or_beside waits mem with rfl | old
    · exact ⟨.cycle next, by simp, r, render.trans known, unchanged⟩
    · refine ⟨b, ?_, r, known, unchanged⟩
      rw [← List.append_cons]
      exact mem_of_beside rfl old

/-- The answer of the latest compile is shown, and its render is under way. -/
theorem renders {record : List Nat} (sound : Ledger.answers.Sound record s) (inStep : InStep s)
    {source : Snapshot} {ticket : Ticket} {e' : Engine}
    (waits : s.waiting = before ++ .cycle (.compiling source ticket) :: after)
    (current : s.engine.compiles.isCurrent ticket)
    (status : e'.status = ⟨.rendering, Status.without s.engine.status.pending (some ticket)⟩)
    (counters : e'.counters =
      { s.engine.counters with renders := ⟨s.engine.counters.renders.latest + 1⟩ }) :
    InStep ⟨e', before ++
      [.cycle (.locating ⟨source, some ticket, ⟨s.engine.counters.renders.latest + 1⟩⟩)] ++
        after⟩ := by
  have compiles : e'.compiles = s.engine.compiles := congrArg Counters.compiles counters
  have latest : e'.renders.latest = s.engine.counters.renders.latest + 1 :=
    congrArg (fun k => k.renders.latest) counters
  have pending : s.engine.status.pending = some ticket :=
    (inStep.pending ticket).mpr
      ⟨current, _, waits ▸ List.mem_append_cons_self, rfl⟩
  rw [pending, Status.without_self] at status
  refine of_rendering status (fun other => ?_) ?_
  · constructor
    · intro nothing
      cases nothing
    · intro awaits
      have held : ticket ∈ (Activity.cycle (.compiling source ticket)).pendingTicket? := rfl
      refine absurd awaits (not_awaits_of_answered sound waits held current compiles ?_ other)
      intro b mem
      refine (beside_or_next mem).imp_right fun new => ?_
      rw [List.mem_singleton.mp new]
      rfl
  · refine ⟨_, List.mem_append_left _ List.mem_concat_self, _, rfl, ?_⟩
    apply (Render.isStale_iff _ _).mpr
    constructor
    · intro held same
      cases same
      exact compiles ▸ current
    · exact Sequence.isCurrent_iff.mpr latest.symm

/-- A cycle with the latest tickets is over. -/
theorem ends {record : List Nat} (sound : Ledger.answers.Sound record s) (inStep : InStep s)
    {c : Cycle} {e' : Engine} (waits : s.waiting = before ++ .cycle c :: after)
    (current : (Activity.cycle c).IsCurrent s.engine.counters)
    (status : e'.status = .settled (Status.without s.engine.status.pending c.pendingTicket?))
    (counters : e'.counters = s.engine.counters) : InStep ⟨e', before ++ [] ++ after⟩ := by
  have compiles : e'.compiles = s.engine.compiles := congrArg Counters.compiles counters
  rw [List.append_nil]
  refine of_settled status fun other => ?_
  cases held : c.pendingTicket? with
  | none =>
    rw [Status.without_none]
    refine (inStep.pending other).trans (awaits_of_leaves waits rfl compiles ?_ other).symm
    intro ticket mine
    cases held.symm.trans mine
  | some ticket =>
    have holds : ticket ∈ (Activity.cycle c).pendingTicket? := held
    have latest : s.engine.compiles.isCurrent ticket :=
      current.1 ticket (Activity.compileTicket?_of_pending holds)
    have pending : s.engine.status.pending = some ticket :=
      (inStep.pending ticket).mpr
        ⟨latest, _, waits ▸ List.mem_append_cons_self, holds⟩
    rw [pending, Status.without_self]
    constructor
    · intro nothing
      cases nothing
    · intro awaits
      have left : ∀ b ∈ (BusyEngine.mk e' (before ++ after)).waiting,
          b ∈ before ++ after ∨ b.pendingTicket? = none := fun b mem => .inl mem
      exact absurd awaits (not_awaits_of_answered sound waits holds latest compiles left other)

/-- A reply that comes too late is dropped, and nothing was pending for it. -/
theorem drops (inStep : InStep s) (waits : s.waiting = before ++ a :: after)
    (stale : ¬ a.IsCurrent s.engine.counters) (lines : List Console.LogLine) :
    InStep ⟨s.engine.say lines, before ++ [] ++ after⟩ := by
  obtain ⟨unheard, unseen⟩ := a.unheard_of_stale stale
  rw [List.append_nil]
  refine inStep.of_same (s.engine.say_status lines) (awaits_of_leaves waits rfl rfl unheard) ?_
  rintro ⟨b, mem, r, known, current⟩
  rcases eq_or_beside waits mem with rfl | old
  · cases (unseen r known).symm.trans current
  · exact ⟨b, old, r, known, current⟩

/-- When nothing waits, the engine is idle. -/
theorem idle_of_nothing_waits (inStep : InStep s) (nothing : s.waiting = []) :
    s.engine.state.phase = .idle ∧ s.engine.state.pendingCompile = none := by
  have missing : s.engine.state.pendingCompile = none := by
    cases pending : s.engine.state.pendingCompile with
    | none => rfl
    | some ticket =>
      obtain ⟨-, a, waits, -⟩ := (inStep.pending ticket).mp pending
      rw [nothing] at waits
      cases waits
  refine ⟨?_, missing⟩
  cases phase : s.engine.state.phase with
  | idle => rfl
  | compiling =>
    have pending := inStep.compiling phase
    rw [missing] at pending
    cases pending
  | rendering =>
    obtain ⟨a, waits, -⟩ := inStep.rendering phase
    rw [nothing] at waits
    cases waits
  | error => exact absurd phase inStep.passing

variable [ImageDecoder]

theorem resumes {record : List Nat} (sound : Ledger.answers.Sound record s) (inStep : InStep s)
    (waits : s.waiting = before ++ a :: after) (reply : a.call.Reply) :
    InStep ⟨(a.resume s.engine reply).1, before ++ (a.resume s.engine reply).2.next ++ after⟩ := by
  by_cases current : a.IsCurrent s.engine.counters
  · cases a with
    | cycle c =>
      have turns := Cycle.resume_turns ((c.isStale_iff s.engine).mpr current) reply
      show InStep ⟨(c.resume s.engine reply).1,
        before ++ ((c.resume s.engine reply).2.map Activity.cycle Ending.cycle).next ++ after⟩
      revert turns
      generalize c.resume s.engine reply = step
      intro turns
      cases turns with
      | goesOn status counters pending render =>
        exact inStep.goesOn waits status counters pending render
      | @renders source ticket e' status counters =>
        have latest : s.engine.compiles.isCurrent ticket := current.1 ticket rfl
        exact renders sound inStep waits latest status counters
      | ends status counters => exact ends sound inStep waits current status counters
    | click c =>
      have counters := c.resume_counters s.engine reply
      have compiles : (c.resume s.engine reply).1.compiles = s.engine.compiles :=
        congrArg Counters.compiles counters
      have renders : (c.resume s.engine reply).1.renders = s.engine.renders :=
        congrArg Counters.renders counters
      show InStep ⟨(c.resume s.engine reply).1, before ++ [] ++ after⟩
      rw [List.append_nil]
      refine inStep.of_same (c.resume_status s.engine reply)
        (awaits_of_leaves waits rfl compiles fun ticket held => nomatch held) ?_
      rintro ⟨b, mem, r, known, latest⟩
      have unchanged : r.isStale (c.resume s.engine reply).1 = false := by
        simpa only [Render.isStale_iff, compiles, renders] using latest
      rcases eq_or_beside waits mem with rfl | old
      · cases known
      · exact ⟨b, old, r, known, unchanged⟩
  · obtain ⟨lines, dropped⟩ := a.resume_stale current reply
    rw [dropped]
    exact inStep.drops waits current lines

theorem step {record : List Nat} (sound : Ledger.answers.Sound record s) (inStep : InStep s)
    {act : Act} (step : Step s act t) : InStep t := by
  cases step with
  | starts demand => exact inStep.starts demand
  | resets => exact resets sound
  | resumes before waits reply => exact resumes sound inStep waits reply

end InStep

/-- In whatever order operations start and go on, and whatever is replied: after every
    step the pending compile is the one that waits with the latest ticket, the phase is
    never the error it passes through, and it tells whether a compile is pending or a
    render under way.  When nothing waits, the engine is idle. -/
theorem phase_follows_operations [ImageDecoder] {cacheCapacity : Nat}
    {moves : List (Move BusyEngine Act)} {s : BusyEngine}
    (run : Run Step (.idle (.start cacheCapacity)) moves s) :
    InStep s ∧ (s.waiting = [] →
      s.engine.state.phase = .idle ∧ s.engine.state.pendingCompile = none) := by
  have inStep : InStep s :=
    run.keepsAlong (P := fun _ s => InStep s) (.idle cacheCapacity) fun earlier inStep step =>
      inStep.step (Ledger.sound_of_run earlier) step
  exact ⟨inStep, inStep.idle_of_nothing_waits⟩

attribute [local instance] pngDecoder

/-- A render starts while a compile is pending, and both are waited for.  The compile and
    the render fail, and the engine is idle. -/
theorem idle_after_failures :
    (∃ moves s, Run Step (.idle (.start 4)) moves s ∧
      s.engine.status = ⟨.rendering, some ⟨1⟩⟩ ∧ InStep s) ∧
    ∃ moves s, Run Step (.idle (.start 4)) moves s ∧ moves.length = 5 ∧ s.waiting = [] ∧
      s.engine.state.phase = .idle ∧ s.engine.state.pendingCompile = none := by
  let source : Snapshot := ⟨default, "", 0⟩
  have nothing : Run Step (.idle (.start 4)) [] _ := .nil
  have both := (nothing.snoc (.starts _ (.compile source))).snoc (.starts _ (.render source))
  have refused := both.snoc
    (.resumes [] (a := .cycle (.persisting source ⟨1⟩)) rfl (.error .mappingNotFound))
  have counted := (refused.snoc
    (.resumes [] (a := .cycle (.locating ⟨source, none, ⟨1⟩⟩)) rfl (.ok none))).snoc
    (.resumes [] (a := .cycle (.counting ⟨source, none, ⟨1⟩⟩ none)) rfl (.error .mappingNotFound))
  exact ⟨⟨_, _, both, rfl, (phase_follows_operations both).1⟩,
    _, _, counted, rfl, rfl, (phase_follows_operations counted).2 rfl⟩

end BusyEngine

end LivePreview.Preview
