import LivePreview.Page.Decoder
import LivePreview.Proofs.Preview.Courses

/-!
# The calls of a compile cycle

A compile cycle asks the backend five times: to write the source, to compile it, for the place
of the cursor, for the number of pages, and for pages.  What it asks next is decided by the
reply, and in the end by the page list of the moment (`Cycle.Leads`).  So its calls are the
first of these five in this order, whatever is replied and whatever else goes on, and they are
all five unless a call other than that for the cursor fails or the cycle is overtaken
(`BusyEngine.calls_of_compile`).
-/

namespace LivePreview

/-- The calls of a cycle that ends with this fetch. -/
def Snapshot.calls (source : Snapshot) (fetch : Call) : List Call :=
  [.persistSource source.path source.content, .compile,
    .resolveCursorPosition source.cursor source.content source.path, .pageCount, fetch]

theorem Snapshot.fetch_of_calls {source : Snapshot} {fetch fetch' : Call}
    (starts : source.calls fetch <+: source.calls fetch') : fetch = fetch' := by
  simpa [calls] using starts.eq_of_length rfl

namespace Preview

/-- Where the backend has placed the cursor, if it has. -/
def mapped (reply : Except Failure (Option Position)) : Option Position :=
  match reply with
  | .ok place => place
  | .error _ => none

/-- The call for pages: for the page of the cursor if there are as many pages as are displayed
    and this is one of them, and for all pages otherwise. -/
def fetchCall (displayed count : Nat) (cursor : Option Position) : Call :=
  match cursor with
  | some p => if displayed = count ∧ p.page < count then .renderPage p.page else .renderAllPages
  | none => .renderAllPages

/-- Where a cycle waits for its pages. -/
def fetching (r : Render) (displayed count : Nat) (cursor : Option Position) : Cycle :=
  match Plan.choose displayed count cursor with
  | .full => .fetchingAll r cursor
  | .single index => .fetchingPage r cursor index

theorem fetching_call (r : Render) (displayed count : Nat) (cursor : Option Position) :
    (fetching r displayed count cursor).call = fetchCall displayed count cursor := by
  unfold fetching fetchCall Plan.choose
  cases cursor with
  | none => by_cases same : displayed = count <;> simp [same]
  | some p => by_cases same : displayed = count <;> by_cases bound : p.page < count <;> simp [*]

namespace Cycle

/-- Where a reply leads a cycle, with the engine at `e`. -/
inductive Leads (e : Engine) : (c : Cycle) → c.call.Reply → Progress Cycle Outcome → Prop
  | persisted (source : Snapshot) (ticket : Ticket) :
      Leads e (.persisting source ticket) (.ok ()) (.waits (.compiling source ticket))
  | compiled (source : Snapshot) (ticket render : Ticket) (diagnostics : List Diagnostic) :
      Leads e (.compiling source ticket) (.ok diagnostics)
        (.waits (.locating ⟨source, some ticket, render⟩))
  | located (r : Render) (reply : Except Failure (Option Position)) :
      Leads e (.locating r) reply (.waits (.counting r (mapped reply)))
  | counted (r : Render) (cursor : Option Position) (count : Nat) :
      Leads e (.counting r cursor) (.ok count)
        (.waits (fetching r e.state.pages.length count cursor))
  | refused {c : Cycle} (f : Failure) (other : ∀ r, c ≠ .locating r) :
      Leads e c (.error f) (.ended (.failed f.kind))
  | fetched {c : Cycle} {r : Render} (fetches : c.fetches? = some r) (reply : c.call.Reply)
      {outcome : Outcome} (ends : outcome ≠ .superseded) : Leads e c reply (.ended outcome)
  | overtaken {c : Cycle} (stale : ¬ (Activity.cycle c).IsCurrent e.counters)
      (reply : c.call.Reply) : Leads e c reply (.ended .superseded)

theorem endRender_leads {e e' : Engine} {c : Cycle} {r : Render} (fetches : c.fetches? = some r)
    (reply : c.call.Reply) (cursor : Option Position) (plan : Plan) (splice : SpliceResult) :
    Leads e c reply (e'.endRender cursor plan splice).2 := by
  unfold Engine.endRender
  dsimp only
  split
  · exact .fetched fetches reply nofun
  · exact .fetched fetches reply nofun

theorem mapped_of_nowhere {reply : Except Failure (Option Position)}
    (lost : ∀ p, reply ≠ .ok (some p)) : mapped reply = none := by
  cases reply with
  | error f => rfl
  | ok place =>
    cases place with
    | none => rfl
    | some p => exact absurd rfl (lost p)

theorem Takes.leads [ImageDecoder] {e : Engine} {c : Cycle} {reply : c.call.Reply}
    {step : CycleStep} (takes : Takes e c reply step) : Leads e c reply step.2 := by
  cases takes with
  | written source ticket => exact .persisted source ticket
  | passed source ticket diagnostics => exact .compiled source ticket _ diagnostics
  | located r p => exact .located r (.ok (some p))
  | nowhere r reply lost =>
    have located := Leads.located (e := e) r reply
    rwa [mapped_of_nowhere lost] at located
  | wantsAll r cursor count full =>
    have counted := Leads.counted (e := e) r cursor count
    simpa only [fetching, full] using counted
  | wantsOne r cursor count index single =>
    have counted := Leads.counted (e := e) r cursor count
    simpa only [fetching, single] using counted
  | fetchedAll | fetchedOne => exact endRender_leads rfl ..
  | fetchedOther => exact .fetched rfl _ nofun
  | _ => exact .refused _ nofun

theorem resume_leads [ImageDecoder] (c : Cycle) (e : Engine) (reply : c.call.Reply) :
    Leads e c reply (c.resume e reply).2 := by
  have resumes := c.resumes e reply
  generalize c.resume e reply = step at resumes ⊢
  cases resumes with
  | dropped stale =>
    refine .overtaken (fun current => ?_) reply
    rw [(c.isStale_iff e).mpr current] at stale
    cases stale
  | inTime current takes => exact takes.leads

theorem Leads.of_error {e : Engine} {c : Cycle} {f : Failure} {progress : Progress Cycle Outcome}
    (leads : c.Leads e (.error f) progress) (other : ∀ r, c ≠ .locating r) :
    ∃ outcome, progress = .ended outcome := by
  cases leads with
  | located r => exact absurd rfl (other r)
  | refused | fetched | overtaken => exact ⟨_, rfl⟩

theorem Leads.of_located {e : Engine} {r : Render} {reply : Except Failure (Option Position)}
    {progress : Progress Cycle Outcome} (leads : (Cycle.locating r).Leads e reply progress) :
    progress = .ended .superseded ∨ progress = .waits (.counting r (mapped reply)) := by
  cases leads with
  | located => exact .inr rfl
  | refused f other => exact absurd rfl (other r)
  | fetched fetches => cases fetches
  | overtaken => exact .inl rfl

theorem Leads.of_counted {e : Engine} {r : Render} {cursor : Option Position} {count : Nat}
    {next : Cycle} (leads : (Cycle.counting r cursor).Leads e (.ok count) (.waits next)) :
    next = fetching r e.state.pages.length count cursor := by
  cases leads
  rfl

/-- How many calls a cycle has made in this stage. -/
def asked : Cycle → Nat
  | .persisting _ _ => 1
  | .compiling _ _ => 2
  | .locating _ => 3
  | .counting _ _ => 4
  | .fetchingAll _ _ => 5
  | .fetchingPage _ _ _ => 5

theorem asked_le (c : Cycle) : c.asked ≤ 5 := by
  cases c <;> simp [asked]

theorem asked_fetching (r : Render) (displayed count : Nat) (cursor : Option Position) :
    (fetching r displayed count cursor).asked = 5 ∧
      (fetching r displayed count cursor).source = r.source := by
  unfold fetching
  split <;> exact ⟨rfl, rfl⟩

theorem asked_of_fetches {c : Cycle} {r : Render} (fetches : c.fetches? = some r) :
    c.asked = 5 := by
  cases c <;> first | rfl | cases fetches

/-- The calls that a cycle has made in this stage. -/
def calls (c : Cycle) : List Call :=
  (c.source.calls c.call).take c.asked

theorem calls_of_fetches {c : Cycle} {r : Render} (fetches : c.fetches? = some r) :
    c.calls = c.source.calls c.call := by
  rw [calls, asked_of_fetches fetches]
  rfl

theorem Leads.of_counting {e : Engine} {c : Cycle} {reply : c.call.Reply} {r : Render}
    {cursor : Option Position} (leads : c.Leads e reply (.waits (.counting r cursor))) :
    ∃ reply', c = .locating r ∧ HEq reply reply' ∧ cursor = mapped reply' := by
  generalize there : Cycle.counting r cursor = next at leads
  cases leads with
  | located r' reply' =>
    cases there
    exact ⟨reply', rfl, .rfl, rfl⟩
  | counted r' cursor' count =>
    have asked := (asked_fetching r' e.state.pages.length count cursor').1
    cases there ▸ asked
  | persisted | compiled => cases there

theorem Leads.calls {e : Engine} {c next : Cycle} {reply : c.call.Reply}
    (leads : c.Leads e reply (.waits next)) :
    next.source = c.source ∧ next.calls = c.calls ++ [next.call] := by
  cases leads with
  | counted r cursor count =>
    obtain ⟨asked, source⟩ := asked_fetching r e.state.pages.length count cursor
    refine ⟨source, ?_⟩
    rw [Cycle.calls, asked, source]
    rfl
  | persisted | compiled | located => exact ⟨rfl, rfl⟩

end Cycle

namespace BusyEngine

/-- The call that is made in a move, if any. -/
def issues (move : Move BusyEngine Act) : List Call :=
  match move.act with
  | .starts _ a => [a.call]
  | .resets => []
  | .resumes _ _ progress => progress.next.map Activity.call

/-- Where a cycle is after these moves of its own. -/
inductive Course (source : Snapshot) (ticket : Ticket) :
    List (Move BusyEngine Act) → Progress Cycle Outcome → Prop
  | begins (s t : BusyEngine) :
      Course source ticket [⟨s, .starts (.compile source) (.cycle (.persisting source ticket)), t⟩]
        (.waits (.persisting source ticket))
  | goesOn {own : List (Move BusyEngine Act)} {c : Cycle}
      (course : Course source ticket own (.waits c)) (s t : BusyEngine) {reply : c.call.Reply}
      {progress : Progress Cycle Outcome} (leads : c.Leads s.engine reply progress) :
      Course source ticket
        (own ++ [⟨s, .resumes (.cycle c) reply (progress.map .cycle .cycle), t⟩]) progress

namespace Course

variable {source : Snapshot} {ticket : Ticket} {own : List (Move BusyEngine Act)}
  {progress : Progress Cycle Outcome}

/-- A cycle that waits has made the calls of its stage. -/
theorem calls_of_waits {c : Cycle} (course : Course source ticket own (.waits c)) :
    c.source = source ∧ own.flatMap issues = c.calls := by
  generalize there : Progress.waits c = progress at course
  induction course generalizing c with
  | begins s t =>
    obtain rfl := Progress.waits.inj there
    exact ⟨rfl, rfl⟩
  | goesOn course s t leads inductionHypothesis =>
    subst there
    obtain ⟨source, calls⟩ := inductionHypothesis rfl
    obtain ⟨source', calls'⟩ := leads.calls
    refine ⟨source'.trans source, ?_⟩
    rw [List.flatMap_append, calls, calls']
    rfl

/-- What was before an own move, and what has come of it. -/
theorem around {before after : List (Move BusyEngine Act)} {a b : BusyEngine} {c : Cycle}
    {reply : c.call.Reply} {result : Progress Activity Ending}
    (course : Course source ticket own progress)
    (cut : own = before ++ ⟨a, .resumes (.cycle c) reply result, b⟩ :: after) :
    Course source ticket before (.waits c) ∧ ∃ next, result = next.map .cycle .cycle ∧
      c.Leads a.engine reply next ∧
      Course source ticket (before ++ [⟨a, .resumes (.cycle c) reply result, b⟩]) next ∧
      (after = [] → next = progress) ∧ ∀ outcome, next = .ended outcome → after = [] := by
  induction course generalizing after with
  | begins s t =>
    cases before with
    | nil => cases cut
    | cons => simp at cut
  | @goesOn own c' course s t reply' progress leads inductionHypothesis =>
    rcases after.eq_nil_or_concat with rfl | ⟨rest, final, rfl⟩
    · obtain ⟨rfl, same⟩ := List.append_inj' cut rfl
      cases same
      exact ⟨course, progress, rfl, leads, course.goesOn a b leads, fun _ => rfl, fun _ _ => rfl⟩
    · rw [List.concat_eq_append, ← List.cons_append, ← List.append_assoc] at cut
      obtain ⟨earlier, -⟩ := List.append_inj' cut rfl
      obtain ⟨begun, next, rfl, leads', upTo, last, finished⟩ := inductionHypothesis earlier
      refine ⟨begun, next, rfl, leads', upTo, fun none => by simp at none, fun outcome ended => ?_⟩
      cases ended.symm.trans (last (finished outcome ended))

/-- The cursor of a cycle that counts pages is where it was mapped to. -/
theorem located {r : Render} {cursor : Option Position}
    (course : Course source ticket own (.waits (.counting r cursor))) :
    ∃ a b reply progress, ⟨a, .resumes (.cycle (.locating r)) reply progress, b⟩ ∈ own ∧
      cursor = mapped reply := by
  cases course with
  | @goesOn own c course s t reply _ leads =>
    obtain ⟨reply', rfl, same, rfl⟩ := leads.of_counting
    cases same
    exact ⟨s, t, reply', _, List.mem_append_right own (.head _), rfl⟩

/-- A cycle that has ended issues nothing with its last move. -/
theorem calls_of_ended {c : Cycle} (course : Course source ticket own (.waits c)) (a b : BusyEngine)
    (reply : c.call.Reply) (outcome : Outcome) :
    (own ++ [(⟨a, .resumes (.cycle c) reply (.ended (.cycle outcome)), b⟩ :
      Move BusyEngine Act)]).flatMap issues = c.calls := by
  rw [List.flatMap_append, course.calls_of_waits.2]
  exact List.append_nil _

/-- The calls of a cycle are the first of five, whether it waits or has ended. -/
theorem calls_prefix (course : Course source ticket own progress) :
    ∃ fetch, own.flatMap issues <+: source.calls fetch := by
  have starts {c : Cycle} (same : c.source = source) : c.calls <+: source.calls c.call :=
    same ▸ List.take_prefix ..
  cases progress with
  | waits c =>
    obtain ⟨source, calls⟩ := course.calls_of_waits
    exact ⟨c.call, calls ▸ starts source⟩
  | ended outcome =>
    cases course with
    | @goesOn own c course s t reply =>
      exact ⟨c.call, course.calls_of_ended s t reply outcome ▸ starts course.calls_of_waits.1⟩

end Course

section Run

variable {engine : Engine} {moves : List (Move BusyEngine Act)} {s t u v : BusyEngine} {act : Act}
  {source : Snapshot} {ticket : Ticket}

theorem isCurrent_congr {a : Activity} {badge : Badge} (mine : a.badge? = some badge)
    {k k' : Counters} (compiles : k'.compiles = k.compiles) (renders : k'.renders = k.renders)
    (current : a.IsCurrent k) : a.IsCurrent k' := by
  cases a with
  | click => cases mine
  | cycle c =>
    refine ⟨compiles ▸ current.1, renders ▸ current.2.1, fun ticket holds => ?_⟩
    exact absurd holds (Option.not_mem_none ticket)

/-- The stage after has the latest tickets too. -/
theorem current_of_succeeds {e : Engine} {c next : Cycle} {reply : c.call.Reply} {k : Counters}
    (current : (Activity.cycle c).IsCurrent e.counters) (succeeds : c.Succeeds e reply next k) :
    (Activity.cycle next).IsCurrent k := by
  cases succeeds <;>
    simp_all [Activity.IsCurrent, Activity.compileTicket?, Activity.renderTicket?,
      Activity.clickTicket?, Activity.pendingTicket?, Activity.render?, Cycle.pendingTicket?,
      Cycle.render?, Sequence.isCurrent]

/-- Between its start and its end a cycle takes no ticket but the one for its render, and this
    is when it has compiled. -/
theorem counters_of_succeeds {e : Engine} {c next : Cycle} {reply : c.call.Reply} {k : Counters}
    (current : (Activity.cycle c).IsCurrent e.counters) (succeeds : c.Succeeds e reply next k) :
    k.compiles = e.counters.compiles ∧
      (k.renders = e.counters.renders ∨ c.badge = .compile ⟨e.counters.compiles.latest⟩) := by
  cases succeeds with
  | locating source ticket =>
    have latest := Sequence.isCurrent_iff.mp (current.1 ticket rfl)
    exact ⟨rfl, .inr (latest ▸ rfl)⟩
  | _ => exact ⟨rfl, .inl rfl⟩

variable [ImageDecoder]

/-- The operations with a badge that wait after the move of another one waited before. -/
theorem Step.waited {badge : Badge} (step : Step s act t) (other : act.badge? ≠ some badge)
    {a : Activity} (waits : a ∈ t.waiting) (mine : a.badge? = some badge) : a ∈ s.waiting := by
  cases step with
  | starts demand =>
    rcases List.mem_append.mp waits with old | started
    · exact old
    · exact absurd (List.mem_singleton.mp started ▸ mine) other
  | resets => exact waits
  | @resumes before after b waiting reply =>
    rcases beside_or_next waits with old | next
    · exact mem_of_beside waiting old
    · exact absurd ((Activity.badge?_of_next next).symm.trans mine) other

/-- The own moves of a compile cycle are its course, and it waits as the course says. -/
def Follows (source : Snapshot) (ticket : Ticket) (moves : List (Move BusyEngine Act))
    (s : BusyEngine) : Prop :=
  ∃ progress, Course source ticket (movesOf (.compile ticket) moves) progress ∧
    ∀ a ∈ s.waiting, a.badge? = some (.compile ticket) →
      ∃ c, a = .cycle c ∧ progress = .waits c

theorem Follows.step (run : Run Step (.idle engine) moves s)
    (follows : Follows source ticket moves s)
    (issued : (Badge.compile ticket).IsIssued s.engine.counters) (step : Step s act t) :
    Follows source ticket (moves ++ [⟨s, act, t⟩]) t := by
  obtain ⟨progress, course, there⟩ := follows
  rw [Follows, movesOf_snoc]
  by_cases mine : act.badge? = some (.compile ticket)
  · rw [if_pos mine]
    cases step with
    | starts demand => exact absurd issued (Demand.start_badge mine)
    | resets => cases mine
    | @resumes before after a waits reply =>
      obtain ⟨c, rfl, rfl⟩ := there a (waits ▸ List.mem_append_right _ (.head _)) mine
      refine ⟨_, course.goesOn s _ (c.resume_leads s.engine reply), fun b mem own => ?_⟩
      have alone : b ∉ before ++ after := fun other => badge_alone run waits mine other own
      have next : b ∈ ((c.resume s.engine reply).2.map Activity.cycle Ending.cycle).next :=
        (beside_or_next mem).resolve_left alone
      cases progress : (c.resume s.engine reply).2 with
      | waits c' =>
        rw [progress] at next
        exact ⟨c', List.mem_singleton.mp next, rfl⟩
      | ended outcome =>
        rw [progress] at next
        cases next
  · rw [if_neg mine, List.append_nil]
    exact ⟨progress, course, fun a waits own => there a (step.waited mine waits own) own⟩

theorem Step.of_starts {demand : Demand} {a : Activity} (step : Step s (.starts demand a) t) :
    a = (demand.start s.engine).2 ∧ t = ⟨(demand.start s.engine).1, s.waiting ++ [a]⟩ := by
  cases step
  exact ⟨rfl, rfl⟩

/-- After a move of a cycle its ticket was given out. -/
theorem Step.issued {badge : Badge} (run : Run Step (.idle engine) moves s) (step : Step s act t)
    (mine : act.badge? = some badge) : badge.IsIssued t.engine.counters := by
  cases step with
  | starts demand =>
    exact issued_of_waiting (run.snoc (.starts s demand)) (List.mem_append_right _ (.head _)) mine
  | resets => cases mine
  | @resumes before after a waits reply =>
    have issued := issued_of_waiting run (waits ▸ List.mem_append_right before (.head after)) mine
    exact issued.later (a.resume_advances s.engine reply).before

theorem movesOf_before_start (run : Run Step (.idle engine) moves s) {demand : Demand}
    {badge : Badge} (mine : (demand.start s.engine).2.badge? = some badge) :
    movesOf badge moves = [] := by
  refine List.filter_eq_nil_iff.mpr fun move mem own => ?_
  obtain ⟨first, rest, cut⟩ := List.append_of_mem mem
  obtain ⟨begun, step, continued⟩ := run.around cut
  have issued := step.issued begun (of_decide_eq_true own)
  exact Demand.start_badge mine (issued.later (before_of_run continued))

/-- A compile cycle follows its course from its start on. -/
theorem follows_of_run (run : Run Step (.idle engine) moves s)
    (begins : ⟨u, .starts (.compile source) (.cycle (.persisting source ticket)), v⟩ ∈ moves) :
    Follows source ticket moves s := by
  obtain ⟨first, rest, cut⟩ := List.append_of_mem begins
  obtain ⟨begun, starts, continued⟩ := run.around cut
  dsimp only at begun starts continued
  obtain ⟨new, after⟩ := starts.of_starts
  have mine : ((Demand.compile source).start u.engine).2.badge? = some (.compile ticket) :=
    new ▸ rfl
  have issued : (Badge.compile ticket).IsIssued v.engine.counters := starts.issued begun rfl
  have started : Follows source ticket (first ++ [⟨u, .starts (.compile source)
      (.cycle (.persisting source ticket)), v⟩]) v := by
    refine ⟨.waits (.persisting source ticket), ?_, fun a waits own => ?_⟩
    · rw [movesOf_snoc, movesOf_before_start begun mine]
      simpa [Act.badge?, Activity.badge?, Cycle.badge] using Course.begins u v
    · rw [after] at waits
      rcases List.mem_append.mp waits with old | started
      · exact absurd (issued_of_waiting begun old own) (Demand.start_badge mine)
      · exact ⟨_, List.mem_singleton.mp started, rfl⟩
  rw [cut, List.append_cons]
  refine continued.keepsAlong (P := fun rest s => Follows source ticket (_ ++ rest) s)
    (by simpa using started) fun earlier follows step => ?_
  rw [← List.append_assoc]
  exact follows.step ((begun.snoc starts).append earlier)
    (issued.later (before_of_run earlier)) step

/-! ## Cycles that are overtaken -/

/-- Whether something newer is started, or the engine is reset. -/
def Act.Overtakes : Act → Prop
  | .starts (.click ..) _ => False
  | .resumes .. => False
  | _ => True

/-- No compile is newer than this one, and the cycle has the latest tickets. -/
def Foremost (ticket : Ticket) (s : BusyEngine) : Prop :=
  ticket.number = s.engine.counters.compiles.latest ∧
    ∀ a ∈ s.waiting, a.badge? = some (.compile ticket) → a.IsCurrent s.engine.counters

theorem Foremost.resumes (run : Run Step (.idle engine) moves s) (foremost : Foremost ticket s)
    {before after : List Activity} {a : Activity} (waits : s.waiting = before ++ a :: after)
    (reply : a.call.Reply) : Foremost ticket
      ⟨(a.resume s.engine reply).1, before ++ (a.resume s.engine reply).2.next ++ after⟩ := by
  obtain ⟨latest, current⟩ := foremost
  have alone {b : Activity} (mem : b ∈ before ++ after) (own : b.badge? = some (.compile ticket)) :
      a.badge? ≠ some (.compile ticket) := fun mine => badge_alone run waits mine mem own
  have advances := a.resume_advances s.engine reply
  generalize a.resume s.engine reply = step at advances ⊢
  cases advances with
  | ends same =>
    refine ⟨latest.trans (congrArg (·.compiles.latest) same.symm), fun b mem own => ?_⟩
    rw [Progress.next_ended, List.append_nil] at mem
    exact same ▸ current b (mem_of_beside waits mem) own
  | @waits c next reply e' now succeeds =>
    obtain ⟨compiles, renders⟩ := counters_of_succeeds now succeeds
    refine ⟨latest.trans (congrArg Sequence.latest compiles.symm), fun b mem own => ?_⟩
    rcases beside_or_next mem with other | next
    · -- the render ticket of another cycle could only be taken by a newer compile
      refine isCurrent_congr own compiles (renders.resolve_right fun badge => ?_)
        (current b (mem_of_beside waits other) own)
      have same : c.badge = .compile ticket :=
        badge.trans (congrArg (Badge.compile ⟨·⟩) latest.symm)
      exact alone other own (congrArg some same)
    · exact List.mem_singleton.mp next ▸ current_of_succeeds now succeeds

theorem Foremost.step (run : Run Step (.idle engine) moves s) (foremost : Foremost ticket s)
    (step : Step s act t) (ahead : ¬ act.Overtakes) : Foremost ticket t := by
  cases step with
  | starts demand =>
    cases demand with
    | compile | render => exact absurd trivial ahead
    | click text page x y =>
      refine ⟨foremost.1, fun a waits own => ?_⟩
      rcases List.mem_append.mp waits with old | started
      · exact isCurrent_congr (k := s.engine.counters) own rfl rfl (foremost.2 a old own)
      · cases List.mem_singleton.mp started ▸ own
  | resets => exact absurd trivial ahead
  | resumes before waits reply => exact foremost.resumes run waits reply

theorem foremost_of_starts (run : Run Step (.idle engine) moves u)
    (starts : Step u (.starts (.compile source) (.cycle (.persisting source ticket))) v) :
    Foremost ticket v := by
  obtain ⟨new, rfl⟩ := starts.of_starts
  have mine : ((Demand.compile source).start u.engine).2.badge? = some (.compile ticket) :=
    new ▸ rfl
  have latest : ticket.number = (u.engine.startCompile source).1.counters.compiles.latest := by
    rw [Demand.start, u.engine.startCompile_cycle] at new
    cases new
    rw [u.engine.startCompile_counters]
  refine ⟨latest, fun a waits own => ?_⟩
  rcases List.mem_append.mp waits with old | started
  · exact absurd (issued_of_waiting run old own) (Demand.start_badge mine)
  · rw [List.mem_singleton.mp started, ← Cycle.isStale_iff]
    rw [Cycle.isStale, Bool.not_eq_false']
    exact Sequence.isCurrent_iff.mpr latest

/-- A cycle is overtaken only if something newer was started since, or the engine was reset. -/
theorem overtakes_of_superseded {between : List (Move BusyEngine Act)} {c : Cycle}
    {reply : c.call.Reply} (run : Run Step (.idle engine) moves u)
    (starts : Step u (.starts (.compile source) (.cycle (.persisting source ticket))) v)
    (continued : Run Step v between s)
    (ends : Step s (.resumes (.cycle c) reply (.ended (.cycle .superseded))) t)
    (mine : c.badge = .compile ticket) : ∃ move ∈ between, move.act.Overtakes := by
  by_contra none
  have ahead : ∀ move ∈ between, ¬ move.act.Overtakes := fun move mem overtakes =>
    none ⟨move, mem, overtakes⟩
  have foremost : Foremost ticket s := by
    refine continued.keepsAlong (P := fun moves s =>
      (∀ move ∈ moves, ¬ move.act.Overtakes) → Foremost ticket s)
      (fun _ => foremost_of_starts run starts) (fun earlier foremost step ahead => ?_) ahead
    obtain ⟨before, last⟩ := List.forall_mem_append.mp ahead
    exact (foremost before).step ((run.snoc starts).append earlier) step (last _ (.head _))
  obtain ⟨before, after, waits, progress, -⟩ := ends.of_resumes
  have current := foremost.2 (.cycle c) (waits ▸ List.mem_append_right before (.head after))
    (congrArg some mine)
  have leads := c.resume_leads s.engine reply
  cases result : (c.resume s.engine reply).2 with
  | waits next => simp [Activity.resume, result, Progress.map] at progress
  | ended outcome =>
    rw [result] at leads
    obtain rfl : outcome = .superseded := by
      simpa [Activity.resume, result, Progress.map] using progress.symm
    cases leads with
    | fetched _ _ ends => exact ends rfl
    | overtaken stale => exact stale current

end Run

/-- A call other than that for the place of the cursor has failed. -/
def Act.Fails (act : Act) : Prop :=
  ∃ c f progress, (∀ r, c ≠ .locating r) ∧ act = .resumes (.cycle c) (.error f) progress

/-- The calls that a compile cycle makes in a run. -/
structure Conducts (source : Snapshot) (ticket : Ticket) (moves : List (Move BusyEngine Act))
    (fetch : Call) : Prop where
  /-- They are the first of five. -/
  starts : (movesOf (.compile ticket) moves).flatMap issues <+: source.calls fetch
  /-- Which pages are fetched is decided when they have been counted. -/
  fetches : ∀ {a b r cursor count next},
    ⟨a, .resumes (.cycle (.counting r cursor)) (.ok count) (.waits next), b⟩ ∈
      movesOf (.compile ticket) moves →
    fetch = fetchCall a.engine.state.pages.length count cursor ∧
    ∃ a' b' reply progress, ⟨a', .resumes (.cycle (.locating r)) reply progress, b'⟩ ∈
      movesOf (.compile ticket) moves ∧ cursor = mapped reply
  /-- Nothing follows a call that fails. -/
  fails : ∀ {before move after}, movesOf (.compile ticket) moves = before ++ move :: after →
    move.act.Fails → issues move = [] ∧ after = []
  /-- That the cursor has no place ends nothing. -/
  goesOn : ∀ {a b r reply progress},
    ⟨a, .resumes (.cycle (.locating r)) reply progress, b⟩ ∈ movesOf (.compile ticket) moves →
    progress = .ended (.cycle .superseded) ∨
      progress = .waits (.cycle (.counting r (mapped reply)))
  /-- A cycle that has ended has made all calls unless one failed or it was overtaken. -/
  completes : ∀ {a b c reply outcome},
    ⟨a, .resumes (.cycle c) reply (.ended (.cycle outcome)), b⟩ ∈ movesOf (.compile ticket) moves →
    outcome ≠ .superseded → (∀ move ∈ movesOf (.compile ticket) moves, ¬ move.act.Fails) →
    (movesOf (.compile ticket) moves).flatMap issues = source.calls fetch

section Conducts

variable {source : Snapshot} {ticket : Ticket} {moves : List (Move BusyEngine Act)}
  {progress : Progress Cycle Outcome} {fetch : Call}
  (course : Course source ticket (movesOf (.compile ticket) moves) progress)
  (starts : (movesOf (.compile ticket) moves).flatMap issues <+: source.calls fetch)
include course

theorem Course.fails {before after : List (Move BusyEngine Act)} {move : Move BusyEngine Act}
    (cut : movesOf (.compile ticket) moves = before ++ move :: after) (fails : move.act.Fails) :
    issues move = [] ∧ after = [] := by
  obtain ⟨c, f, result, other, act⟩ := fails
  obtain ⟨a, _, b⟩ := move
  obtain rfl := act
  obtain ⟨-, next, rfl, leads, -, -, finished⟩ := course.around cut
  obtain ⟨outcome, rfl⟩ := leads.of_error other
  exact ⟨rfl, finished outcome rfl⟩

theorem Course.goesOn_located {a b : BusyEngine} {r : Render}
    {reply : Except Failure (Option Position)} {result : Progress Activity Ending}
    (mem : ⟨a, .resumes (.cycle (.locating r)) reply result, b⟩ ∈
      movesOf (.compile ticket) moves) :
    result = .ended (.cycle .superseded) ∨
      result = .waits (.cycle (.counting r (mapped reply))) := by
  obtain ⟨before, after, cut⟩ := List.append_of_mem mem
  obtain ⟨-, next, rfl, leads, -⟩ := course.around cut
  rcases leads.of_located with rfl | rfl
  · exact .inl rfl
  · exact .inr rfl

include starts

/-- The call for pages is the one that the count decides for. -/
theorem Course.fetches {a b : BusyEngine} {r : Render} {cursor : Option Position} {count : Nat}
    {next : Activity}
    (mem : ⟨a, .resumes (.cycle (.counting r cursor)) (.ok count) (.waits next), b⟩ ∈
      movesOf (.compile ticket) moves) :
    fetch = fetchCall a.engine.state.pages.length count cursor ∧
    ∃ a' b' reply result, ⟨a', .resumes (.cycle (.locating r)) reply result, b'⟩ ∈
      movesOf (.compile ticket) moves ∧ cursor = mapped reply := by
  obtain ⟨before, after, cut⟩ := List.append_of_mem mem
  obtain ⟨begun, progress, waits, leads, upTo, -⟩ := course.around cut
  obtain ⟨a', b', reply, result, located, same⟩ := begun.located
  refine ⟨?_, a', b', reply, result, cut ▸ List.mem_append_left _ located, same⟩
  cases progress with
  | ended outcome => cases waits
  | waits c =>
    obtain rfl := leads.of_counted
    obtain ⟨source', calls⟩ := upTo.calls_of_waits
    obtain ⟨asked, -⟩ := Cycle.asked_fetching r a.engine.state.pages.length count cursor
    rw [Cycle.calls, asked, source'] at calls
    rw [cut, List.append_cons, List.flatMap_append, calls] at starts
    rw [← fetching_call r]
    exact (Snapshot.fetch_of_calls ((List.prefix_append ..).trans starts)).symm

theorem Course.completes {a b : BusyEngine} {c : Cycle} {reply : c.call.Reply} {outcome : Outcome}
    (mem : ⟨a, .resumes (.cycle c) reply (.ended (.cycle outcome)), b⟩ ∈
      movesOf (.compile ticket) moves) (inTime : outcome ≠ .superseded)
    (sound : ∀ move ∈ movesOf (.compile ticket) moves, ¬ move.act.Fails) :
    (movesOf (.compile ticket) moves).flatMap issues = source.calls fetch := by
  obtain ⟨before, after, cut⟩ := List.append_of_mem mem
  obtain ⟨begun, next, ended, leads, -, -, finished⟩ := course.around cut
  obtain rfl : next = .ended outcome := by
    cases next <;> simp_all [Progress.map]
  obtain rfl := finished outcome rfl
  cases leads with
  | refused f other => exact absurd ⟨c, f, _, other, rfl⟩ (sound _ mem)
  | overtaken => exact absurd rfl inTime
  | fetched fetches =>
    obtain ⟨same, -⟩ := begun.calls_of_waits
    have calls := begun.calls_of_ended a b reply outcome
    rw [← cut, Cycle.calls_of_fetches fetches, same] at calls
    rw [calls] at starts ⊢
    rw [Snapshot.fetch_of_calls starts]

end Conducts

section Run

variable [ImageDecoder] {engine : Engine} {moves : List (Move BusyEngine Act)} {s u v : BusyEngine}
  {source : Snapshot} {ticket : Ticket}

/-- In whatever order operations start and go on, and whatever is replied, a compile cycle makes
    its calls as it should.  It is overtaken only after something newer was started or the
    engine was reset. -/
theorem calls_of_compile (run : Run Step (.idle engine) moves s)
    (begins : ⟨u, .starts (.compile source) (.cycle (.persisting source ticket)), v⟩ ∈ moves) :
    (∃ fetch, Conducts source ticket moves fetch) ∧
    ∀ {a b c reply}, ⟨a, .resumes (.cycle c) reply (.ended (.cycle .superseded)), b⟩ ∈
        movesOf (.compile ticket) moves →
      ∃ first between rest, moves =
        first ++ ⟨u, .starts (.compile source) (.cycle (.persisting source ticket)), v⟩ ::
          (between ++ ⟨a, .resumes (.cycle c) reply (.ended (.cycle .superseded)), b⟩ :: rest) ∧
        ∃ move ∈ between, move.act.Overtakes := by
  obtain ⟨progress, course, -⟩ := follows_of_run run begins
  obtain ⟨fetch, starts⟩ := course.calls_prefix
  refine ⟨⟨fetch, starts, course.fetches starts, course.fails, course.goesOn_located,
    course.completes starts⟩, fun {a b c reply} own => ?_⟩
  obtain ⟨mem, mine⟩ := mem_movesOf.mp own
  obtain ⟨first, rest, cut⟩ := List.append_of_mem begins
  obtain ⟨begun, starts, continued⟩ := run.around cut
  rw [cut] at mem
  rcases List.mem_append.mp mem with before | after
  · have nothing : movesOf (.compile ticket) first = [] :=
      movesOf_before_start begun (congrArg Activity.badge? starts.of_starts.1).symm
    exact absurd (mem_movesOf.mpr ⟨before, mine⟩) (nothing ▸ List.not_mem_nil)
  · have since := (List.mem_cons.mp after).resolve_left nofun
    obtain ⟨between, later, split⟩ := List.append_of_mem since
    obtain ⟨upTo, ends, -⟩ := continued.around split
    exact ⟨first, between, later, split ▸ cut,
      overtakes_of_superseded begun starts upTo ends (Option.some.inj mine)⟩

end Run

attribute [local instance] pngDecoder

/-- The place of the cursor is asked for in vain, and the cycle goes on to all pages. -/
theorem unplaced_cursor_fetches_all : ∃ engine moves s u v source ticket,
    Run Step (.idle engine) moves s ∧
    ⟨u, .starts (.compile source) (.cycle (.persisting source ticket)), v⟩ ∈ moves ∧
    Conducts source ticket moves .renderAllPages ∧
    (movesOf (.compile ticket) moves).flatMap issues = source.calls .renderAllPages := by
  let source : Snapshot := ⟨default, "", 0⟩
  let r : Render := ⟨source, some ⟨1⟩, ⟨1⟩⟩
  have starts := Step.starts (.idle (.start 4)) (.compile source)
  have nothing : Run Step (.idle (.start 4)) [] _ := .nil
  have compiled := ((nothing.snoc starts).snoc
    (.resumes [] (a := .cycle (.persisting source ⟨1⟩)) rfl (.ok ()))).snoc
    (.resumes [] (a := .cycle (.compiling source ⟨1⟩)) rfl (.ok []))
  have rendered := ((compiled.snoc
    (.resumes [] (a := .cycle (.locating r)) rfl (.error .mappingNotFound))).snoc
    (.resumes [] (a := .cycle (.counting r none)) rfl (.ok 0))).snoc
    (.resumes [] (a := .cycle (.fetchingAll r none)) rfl (.ok []))
  obtain ⟨moves, s, v, run, begins, calls⟩ : ∃ moves s v, Run Step (.idle (.start 4)) moves s ∧
      ⟨.idle (.start 4), .starts (.compile source) (.cycle (.persisting source ⟨1⟩)), v⟩ ∈ moves ∧
      (movesOf (.compile ⟨1⟩) moves).flatMap issues = source.calls .renderAllPages :=
    ⟨_, _, _, rendered, .head _, by decide +kernel⟩
  obtain ⟨⟨fetch, conducts⟩, -⟩ := calls_of_compile run begins
  have same : .renderAllPages = fetch := Snapshot.fetch_of_calls (calls ▸ conducts.starts)
  exact ⟨.start 4, moves, s, _, v, source, ⟨1⟩, run, begins, same ▸ conducts, calls⟩

end BusyEngine

end Preview

end LivePreview
