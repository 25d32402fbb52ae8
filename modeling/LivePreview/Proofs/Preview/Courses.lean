import LivePreview.Proofs.Preview.TicketOrder

/-!
# The course of a cycle

A cycle keeps one ticket from its start to its end: that of its compile, or that of its
render if it does not compile.  Its `badge` tells whose moves of a run are its own.  No two
cycles have one badge, so the own moves of a cycle that has ended are its start, the moves in
which it goes on, and then the one in which it ends (`BusyEngine.movesOf_ended`).
-/

namespace LivePreview.Preview

/-- What a cycle is known by. -/
inductive Badge where
  | compile (ticket : Ticket)
  | render (ticket : Ticket)
  deriving DecidableEq

def Badge.IsIssued (k : Counters) : Badge → Prop
  | .compile ticket => ticket.number ≤ k.compiles.latest
  | .render ticket => ticket.number ≤ k.renders.latest

theorem Badge.IsIssued.later {badge : Badge} {k k' : Counters} (issued : badge.IsIssued k)
    (before : k.Before k') : badge.IsIssued k' := by
  cases badge with
  | compile ticket => exact Nat.le_trans issued before.compiles
  | render ticket => exact Nat.le_trans issued before.renders

def Render.badge (r : Render) : Badge :=
  match r.compile with
  | some ticket => .compile ticket
  | none => .render r.ticket

def Cycle.badge : Cycle → Badge
  | .persisting _ ticket => .compile ticket
  | .compiling _ ticket => .compile ticket
  | .locating r => r.badge
  | .counting r _ => r.badge
  | .fetchingAll r _ => r.badge
  | .fetchingPage r _ _ => r.badge

theorem Cycle.Succeeds.badge {e : Engine} {c next : Cycle} {reply : c.call.Reply} {k : Counters}
    (succeeds : c.Succeeds e reply next k) : next.badge = c.badge := by
  cases succeeds <;> rfl

/-! ## Badges of operations -/

namespace Activity

def badge? : Activity → Option Badge
  | .cycle c => some c.badge
  | .click _ => none

/-- The ticket in a badge is held as long as the cycle is under way. -/
theorem tickets_of_badge {a : Activity} {badge : Badge} (mine : a.badge? = some badge) :
    (∀ ticket, badge = .compile ticket → ticket ∈ a.compileTicket?) ∧
      ∀ ticket, badge = .render ticket → ticket ∈ a.renderTicket? := by
  have ofRender : ∀ r : Render, (∀ ticket, r.badge = .compile ticket → r.compile = some ticket) ∧
      ∀ ticket, r.badge = .render ticket → r.ticket = ticket := by
    intro r
    cases compiles : r.compile <;> simp [Render.badge, compiles]
  cases a with
  | cycle c =>
    obtain rfl : c.badge = badge := Option.some.inj mine
    cases c <;>
      simp_all [Cycle.badge, compileTicket?, renderTicket?, pendingTicket?, Cycle.pendingTicket?,
        render?, Cycle.render?]
  | click c => cases mine

theorem badge?_of_next [ImageDecoder] {a b : Activity} {e : Engine} {reply : a.call.Reply}
    (goesOn : b ∈ (a.resume e reply).2.next) : b.badge? = a.badge? := by
  have advances := a.resume_advances e reply
  revert goesOn advances
  generalize a.resume e reply = step
  rintro goesOn (_ | ⟨_, succeeds⟩)
  · cases goesOn
  · obtain rfl := List.mem_singleton.mp goesOn
    exact congrArg some succeeds.badge

end Activity

theorem Demand.start_badge {demand : Demand} {e : Engine} {badge : Badge}
    (mine : (demand.start e).2.badge? = some badge) : ¬ badge.IsIssued e.counters := by
  obtain ⟨compiles, renders⟩ := Activity.tickets_of_badge mine
  obtain ⟨newCompile, newRender, -⟩ := demand.start_new e
  cases badge with
  | compile ticket => exact Nat.not_le.mpr (newCompile ticket (compiles ticket rfl)).1
  | render ticket => exact Nat.not_le.mpr (newRender ticket (renders ticket rfl)).1

namespace BusyEngine

variable [ImageDecoder] {engine : Engine} {s t : BusyEngine} {act : Act} {badge : Badge}
  {moves : List (Move BusyEngine Act)}

theorem issued_of_waiting (run : Run Step (.idle engine) moves s) {a : Activity}
    (waits : a ∈ s.waiting) (mine : a.badge? = some badge) : badge.IsIssued s.engine.counters := by
  obtain ⟨compiles, renders⟩ := Activity.tickets_of_badge mine
  obtain ⟨issuedCompile, issuedRender, -⟩ := isIssued_of_run run waits
  cases badge with
  | compile ticket => exact issuedCompile ticket (compiles ticket rfl)
  | render ticket => exact issuedRender ticket (renders ticket rfl)

theorem badge_alone (run : Run Step (.idle engine) moves s) {before after : List Activity}
    {a b : Activity} (waits : s.waiting = before ++ a :: after) (mine : a.badge? = some badge)
    (mem : b ∈ before ++ after) : b.badge? ≠ some badge := by
  intro shared
  -- the two would hold one ticket, of which the ledgers know only one holder
  obtain ⟨compiles, renders⟩ := Activity.tickets_of_badge mine
  obtain ⟨compiles', renders'⟩ := Activity.tickets_of_badge shared
  cases badge with
  | compile ticket =>
    exact (Ledger.sound_of_run (l := Ledger.compiledFetches) run).alone waits
      (compiles ticket rfl) mem (compiles' ticket rfl)
  | render ticket =>
    exact (Ledger.sound_of_run (l := Ledger.fetches) run).alone waits
      (renders ticket rfl) mem (renders' ticket rfl)

/-! ## Moves of a cycle -/

def Act.badge? : Act → Option Badge
  | .starts _ a => a.badge?
  | .resets => none
  | .resumes a _ _ => a.badge?

/-- The own moves of a cycle: its start, and the replies to its calls. -/
def movesOf (badge : Badge) (moves : List (Move BusyEngine Act)) : List (Move BusyEngine Act) :=
  moves.filter fun move => move.act.badge? = some badge

omit [ImageDecoder] in
theorem mem_movesOf {move : Move BusyEngine Act} :
    move ∈ movesOf badge moves ↔ move ∈ moves ∧ move.act.badge? = some badge := by
  simp [movesOf]

omit [ImageDecoder] in
theorem movesOf_snoc (badge : Badge) (moves : List (Move BusyEngine Act))
    (move : Move BusyEngine Act) :
    movesOf badge (moves ++ [move]) =
      movesOf badge moves ++ if move.act.badge? = some badge then [move] else [] := by
  simp [movesOf, List.filter_append, List.filter_cons]

def Act.Starts : Act → Prop
  | .starts _ _ => True
  | _ => False

/-- Whether an operation is under way after its own move. -/
def Act.GoesOn : Act → Prop
  | .resumes _ _ (.ended _) => False
  | _ => True

/-- The cycle was started, and it is not under way any more. -/
def Gone (badge : Badge) (s : BusyEngine) : Prop :=
  badge.IsIssued s.engine.counters ∧ ∀ a ∈ s.waiting, a.badge? ≠ some badge

theorem Step.of_resumes {a : Activity} {reply : a.call.Reply}
    {progress : Progress Activity Ending} (step : Step s (.resumes a reply progress) t) :
    ∃ before after, s.waiting = before ++ a :: after ∧ progress = (a.resume s.engine reply).2 ∧
      t = ⟨(a.resume s.engine reply).1, before ++ progress.next ++ after⟩ := by
  cases step with
  | @resumes before after _ waits reply => exact ⟨before, after, waits, rfl, rfl⟩

/-- By moves of others no cycle comes to wait. -/
theorem Step.absent (step : Step s act t) (absent : ∀ a ∈ s.waiting, a.badge? ≠ some badge)
    (other : act.badge? ≠ some badge) : ∀ a ∈ t.waiting, a.badge? ≠ some badge := by
  intro b mem
  cases step with
  | starts demand =>
    rcases List.mem_append.mp mem with old | started
    · exact absent b old
    · exact List.mem_singleton.mp started ▸ other
  | resets => exact absent b mem
  | @resumes before after a waits reply =>
    rcases beside_or_next mem with old | next
    · exact absent b (mem_of_beside waits old)
    · exact Activity.badge?_of_next next ▸ other

/-- If no cycle with this badge waits, its move can only be a start. -/
theorem Step.starts_of_absent (step : Step s act t)
    (absent : ∀ a ∈ s.waiting, a.badge? ≠ some badge) (mine : act.badge? = some badge) :
    act.Starts := by
  cases step with
  | starts demand => trivial
  | resets => cases mine
  | @resumes before after a waits reply =>
    exact absurd mine (absent a (waits ▸ List.mem_append_cons_self))

/-- A cycle that is not under way any more makes no moves, and never waits again. -/
theorem Gone.step (gone : Gone badge s) (step : Step s act t) :
    Gone badge t ∧ act.badge? ≠ some badge := by
  obtain ⟨issued, absent⟩ := gone
  have other : act.badge? ≠ some badge := by
    intro mine
    have starts := step.starts_of_absent absent mine
    cases step with
    | starts demand => exact Demand.start_badge mine issued
    | resets | resumes => exact starts
  exact ⟨⟨issued.later step.before, step.absent absent other⟩, other⟩

theorem Gone.run (gone : Gone badge s) (run : Run Step s moves t) :
    Gone badge t ∧ movesOf badge moves = [] :=
  run.keeps (P := fun moves t => Gone badge t ∧ movesOf badge moves = []) ⟨gone, rfl⟩
    fun {moves s act t} ⟨gone, nothing⟩ step => by
      obtain ⟨still, other⟩ := gone.step step
      exact ⟨still, by rw [movesOf_snoc, nothing, if_neg other, List.append_nil]⟩

theorem gone_of_ends (run : Run Step (.idle engine) moves s) {c : Cycle} {reply : c.call.Reply}
    {ending : Ending} (step : Step s (.resumes (.cycle c) reply (.ended ending)) t) :
    Gone c.badge t := by
  obtain ⟨before, after, waits, -, left⟩ := step.of_resumes
  have mem : .cycle c ∈ s.waiting := waits ▸ List.mem_append_cons_self
  have issued : c.badge.IsIssued s.engine.counters := issued_of_waiting run mem rfl
  refine ⟨issued.later step.before, fun b mem => ?_⟩
  rw [left, Progress.next_ended, List.append_nil] at mem
  exact badge_alone run waits rfl mem

/-- The own moves of a cycle that has ended: those in which it goes on, and the last. -/
theorem movesOf_ended (run : Run Step (.idle engine) moves s) {c : Cycle} {reply : c.call.Reply}
    {ending : Ending} {u v : BusyEngine}
    (mem : ⟨u, .resumes (.cycle c) reply (.ended ending), v⟩ ∈ moves) :
    ∃ earlier, movesOf c.badge moves =
        earlier ++ [⟨u, .resumes (.cycle c) reply (.ended ending), v⟩] ∧
      ∀ move ∈ earlier, move.act.GoesOn ∧ Step move.before move.act move.after := by
  obtain ⟨first, rest, cut⟩ := List.append_of_mem mem
  obtain ⟨begun, step, continued⟩ := run.around cut
  have nothing := ((gone_of_ends begun step).run continued).2
  refine ⟨movesOf c.badge first, ?_, fun move own => ?_⟩
  · rw [cut, movesOf, List.filter_append, List.filter_cons, ← movesOf, ← movesOf, nothing]
    simp [Act.badge?, Activity.badge?]
  · obtain ⟨mem, mine⟩ := mem_movesOf.mp own
    obtain ⟨sooner, later, split⟩ := List.append_of_mem mem
    obtain ⟨upTo, taken, between⟩ := begun.around split
    refine ⟨?_, taken⟩
    obtain ⟨before, act, after⟩ := move
    cases act with
    | starts demand activity => trivial
    | resets => trivial
    | resumes a reply' progress =>
      cases progress with
      | waits stage => trivial
      | ended ending' =>
        cases a with
        | click click => simp [Act.badge?, Activity.badge?] at mine
        | cycle c' =>
          have same : c'.badge = c.badge := by simpa [Act.badge?, Activity.badge?] using mine
          obtain ⟨-, absent⟩ := ((gone_of_ends upTo taken).run between).1
          obtain ⟨_, _, waits, -, -⟩ := step.of_resumes
          have mem : .cycle c ∈ u.waiting :=
            waits ▸ List.mem_append_cons_self
          exact absurd (congrArg some same.symm) (absent _ mem)

end BusyEngine

end LivePreview.Preview
