import LivePreview.Proofs.Preview.TicketOrder

/-!
# An engine and the service it calls

A `Service` answers the calls of the engine.  It has a state of its own, and keeps
something of every call it was given until the answer is delivered.  `Coupling` is an
engine with its service and with the operations that wait for it.  Seen from the
engine, every run of a coupling is a run of `BusyEngine` (`Coupling.run_busyEngine`).

Only one operation holds the latest ticket of a compile, and nothing else can write
to the service or compile while it waits: `Coupling.Step.bears` lists what a step
can mean to it.
-/

namespace LivePreview

/-- Whether a call only asks for something, so that the source that was written and
    compiled last stays the same. -/
def Call.IsQuestion : Call → Prop
  | .pageCount => True
  | .renderAllPages => True
  | .renderPage _ => True
  | .resolveCursorPosition .. => True
  | .resolveClick .. => True
  | _ => False

namespace Preview

/-- Something that answers calls. -/
structure Service where
  State : Type
  /-- What is kept of a call until its answer is delivered. -/
  Ongoing : Call → Type
  /-- A call is made. -/
  accept : State → (call : Call) → Ongoing call × State
  /-- A call goes on by itself. -/
  Proceeds : {call : Call} → State → Ongoing call → Ongoing call → State → Prop
  /-- Something else happens. -/
  Drifts : State → State → Prop
  /-- The answer to a call is delivered, or its time is over. -/
  Answers : {call : Call} → State → Ongoing call → call.Reply → State → Prop

/-- An operation that waits, with what the service keeps of its call. -/
structure Errand (v : Service) where
  activity : Activity
  ongoing : v.Ongoing activity.call

namespace Service

variable (v : Service)

def issue (b : v.State) (a : Activity) : Errand v × v.State :=
  (⟨a, (v.accept b a.call).1⟩, (v.accept b a.call).2)

/-- The next call of an operation is made, if it goes on. -/
def dispatch (b : v.State) : Progress Activity Ending → List (Errand v) × v.State
  | .waits a => ([(v.issue b a).1], (v.issue b a).2)
  | .ended _ => ([], b)

theorem dispatch_activities (b : v.State) (progress : Progress Activity Ending) :
    (v.dispatch b progress).1.map Errand.activity = progress.next := by
  cases progress <;> rfl

end Service

/-- An engine, its service, and the operations that wait. -/
structure Coupling (v : Service) where
  engine : Engine
  service : v.State
  errands : List (Errand v)

namespace Coupling

variable {v : Service}

def idle (engine : Engine) (service : v.State) : Coupling v :=
  ⟨engine, service, []⟩

def busyEngine (s : Coupling v) : BusyEngine :=
  ⟨s.engine, s.errands.map Errand.activity⟩

variable [ImageDecoder]

/-- One step of the engine or of the service.  Only the former has an act. -/
inductive Step : Coupling v → Option BusyEngine.Act → Coupling v → Prop
  | starts (s : Coupling v) (demand : Demand) :
      Step s (some (.starts demand (demand.start s.engine).2))
        ⟨(demand.start s.engine).1, (v.issue s.service (demand.start s.engine).2).2,
          s.errands ++ [(v.issue s.service (demand.start s.engine).2).1]⟩
  | resets (s : Coupling v) : Step s (some .resets) { s with engine := s.engine.reset }
  | resumes {s : Coupling v} (before : List (Errand v)) {after : List (Errand v)}
      {errand : Errand v} (waits : s.errands = before ++ errand :: after)
      {reply : errand.activity.call.Reply} {service : v.State}
      (answers : v.Answers s.service errand.ongoing reply service) :
      Step s (some (.resumes errand.activity reply (errand.activity.resume s.engine reply).2))
        ⟨(errand.activity.resume s.engine reply).1,
          (v.dispatch service (errand.activity.resume s.engine reply).2).2,
          before ++ (v.dispatch service (errand.activity.resume s.engine reply).2).1 ++ after⟩
  | proceeds {s : Coupling v} (before : List (Errand v)) {after : List (Errand v)}
      {errand : Errand v} (waits : s.errands = before ++ errand :: after)
      {ongoing : v.Ongoing errand.activity.call} {service : v.State}
      (proceeds : v.Proceeds s.service errand.ongoing ongoing service) :
      Step s none ⟨s.engine, service, before ++ ⟨errand.activity, ongoing⟩ :: after⟩
  | drifts {s : Coupling v} {service : v.State} (drifts : v.Drifts s.service service) :
      Step s none { s with service }

/-! ## Seen from the engine -/

def engineMoves (moves : List (Move (Coupling v) (Option BusyEngine.Act))) :
    List (Move BusyEngine BusyEngine.Act) :=
  moves.filterMap fun move =>
    move.act.map fun act => ⟨move.before.busyEngine, act, move.after.busyEngine⟩

/-- A step is a step of the engine, or the engine notices nothing. -/
theorem Step.busyEngine {s t : Coupling v} {act : Option BusyEngine.Act} (step : Step s act t) :
    match act with
    | some act => BusyEngine.Step s.busyEngine act t.busyEngine
    | none => t.busyEngine = s.busyEngine := by
  cases step with
  | starts demand =>
    simp only [Coupling.busyEngine, List.map_append, List.map_cons, List.map_nil]
    exact .starts _ demand
  | resets => exact .resets _
  | @resumes before after errand waits reply service answers =>
    simp only [Coupling.busyEngine, List.map_append, Service.dispatch_activities, waits,
      List.map_cons]
    exact .resumes _ rfl reply
  | proceeds before waits => simp [Coupling.busyEngine, waits]
  | drifts => rfl

/-- What a step is in which an answer is delivered. -/
theorem Step.of_resumes {s t : Coupling v} {a : Activity} {reply : a.call.Reply}
    {progress : Progress Activity Ending}
    (step : Step s (some (.resumes a reply progress)) t) :
    ∃ before after ongoing b, s.errands = before ++ ⟨a, ongoing⟩ :: after ∧
      v.Answers s.service ongoing reply b ∧ progress = (a.resume s.engine reply).2 ∧
      t = ⟨(a.resume s.engine reply).1, (v.dispatch b (a.resume s.engine reply).2).2,
        before ++ (v.dispatch b (a.resume s.engine reply).2).1 ++ after⟩ := by
  generalize same : some (BusyEngine.Act.resumes a reply progress) = act at step
  cases step with
  | @resumes before after errand waits reply' b answers =>
    obtain ⟨activity, ongoing⟩ := errand
    cases same
    exact ⟨before, after, ongoing, b, waits, answers, rfl, rfl⟩
  | _ => cases same

/-- Where an operation comes from that waits after a step: it waited before, it was started, it was
    answered and made its next call, or the service went on with its call. -/
inductive Comes (s : Coupling v) (act : Option BusyEngine.Act) (t : Coupling v) : Errand v → Prop
  | waited {errand : Errand v} (mem : errand ∈ s.errands) : Comes s act t errand
  | starts (demand : Demand) (did : act = some (.starts demand (demand.start s.engine).2)) :
      Comes s act t (v.issue s.service (demand.start s.engine).2).1
  | goesOn {c next : Cycle} {ongoing : v.Ongoing c.call} {reply : c.call.Reply} {b : v.State}
      (mem : ⟨.cycle c, ongoing⟩ ∈ s.errands)
      (current : (Activity.cycle c).IsCurrent s.engine.counters)
      (answers : v.Answers s.service ongoing reply b)
      (succeeds : c.Succeeds s.engine reply next t.engine.counters) :
      Comes s act t (v.issue b (.cycle next)).1
  | proceeds {old : Errand v} {ongoing : v.Ongoing old.activity.call} (mem : old ∈ s.errands)
      (proceeds : v.Proceeds s.service old.ongoing ongoing t.service) :
      Comes s act t ⟨old.activity, ongoing⟩

theorem Step.comes {s t : Coupling v} {act : Option BusyEngine.Act} (step : Step s act t)
    {errand : Errand v} (mem : errand ∈ t.errands) : Comes s act t errand := by
  cases step with
  | starts demand =>
    rcases List.mem_append.mp mem with old | new
    · exact .waited old
    · obtain rfl := List.mem_singleton.mp new
      exact .starts demand rfl
  | resets | drifts => exact .waited mem
  | @resumes before after answered waits reply b answers =>
    obtain ⟨activity, ongoing⟩ := answered
    rcases beside_or_next mem with waited | new
    · exact .waited (mem_of_beside waits waited)
    · have advances := activity.resume_advances s.engine reply
      dsimp only at waits reply answers new ⊢
      revert advances new
      generalize activity.resume s.engine reply = step
      rintro new (_ | ⟨current, succeeds⟩)
      · cases new
      · obtain rfl := List.mem_singleton.mp new
        exact .goesOn (waits ▸ List.mem_append_cons_self) current answers succeeds
  | @proceeds before after old waits ongoing b proceeds =>
    rcases eq_or_beside rfl mem with rfl | waited
    · exact .proceeds (waits ▸ List.mem_append_cons_self) proceeds
    · exact .waited (mem_of_beside waits waited)

theorem run_busyEngine {engine : Engine} {service : v.State} {s : Coupling v}
    {moves : List (Move (Coupling v) (Option BusyEngine.Act))}
    (run : Run Step (.idle engine service) moves s) :
    Run BusyEngine.Step (.idle engine) (engineMoves moves) s.busyEngine := by
  refine run.keeps
    (P := fun moves s => Run BusyEngine.Step (.idle engine) (engineMoves moves) s.busyEngine)
    .nil fun {moves s act t} earlier step => ?_
  have seen := step.busyEngine
  rw [engineMoves, List.filterMap_append]
  cases act with
  | none =>
    rw [seen]
    simpa [engineMoves] using earlier
  | some act => exact earlier.snoc seen

end Coupling

/-! ## The latest compile -/

theorem Cycle.Succeeds.compileTicket? {e : Engine} {c next : Cycle} {reply : c.call.Reply}
    {k : Counters} (succeeds : c.Succeeds e reply next k) :
    (Activity.cycle next).compileTicket? = (Activity.cycle c).compileTicket? := by
  cases succeeds <;> rfl

/-- A compile that is waited for longer is the same. -/
theorem Cycle.Succeeds.pendingTicket? {e : Engine} {c next : Cycle} {reply : c.call.Reply}
    {k : Counters} (succeeds : c.Succeeds e reply next k) {ticket : Ticket}
    (pending : next.pendingTicket? = some ticket) : c.pendingTicket? = some ticket := by
  cases succeeds with
  | compiling source ticket => exact pending
  | _ => cases pending

/-- A compile whose answer is good begins a render. -/
theorem Cycle.Succeeds.renders_grow {e : Engine} {source : Snapshot} {ticket : Ticket}
    {next : Cycle} {reply : (Cycle.compiling source ticket).call.Reply} {k : Counters}
    (succeeds : (Cycle.compiling source ticket).Succeeds e reply next k) :
    e.counters.renders.latest < k.renders.latest := by
  cases succeeds
  exact Nat.lt_succ_self _

theorem Cycle.Succeeds.source {e : Engine} {c next : Cycle} {reply : c.call.Reply}
    {k : Counters} (succeeds : c.Succeeds e reply next k) : next.source = c.source := by
  cases succeeds <;> rfl

/-- Without a compile, a cycle only asks. -/
theorem Cycle.Succeeds.isQuestion {e : Engine} {c next : Cycle} {reply : c.call.Reply}
    {k : Counters} (succeeds : c.Succeeds e reply next k)
    (alone : (Activity.cycle c).compileTicket? = none) : next.call.IsQuestion := by
  cases succeeds with
  | compiling => cases alone
  | _ => trivial

/-- What becomes of a service when questions are asked, and calls of others go on. -/
inductive Service.Beside (v : Service) (others : List (Errand v)) (b : v.State) :
    v.State → Prop
  | still : Beside v others b b
  | asks {b' : v.State} {call : Call} (beside : Beside v others b b')
      (question : call.IsQuestion) : Beside v others b (v.accept b' call).2
  | answers {b' : v.State} {other : Errand v} {reply : other.activity.call.Reply}
      (mem : other ∈ others) (answers : v.Answers b other.ongoing reply b') :
      Beside v others b b'
  | proceeds {b' : v.State} {other : Errand v} {ongoing : v.Ongoing other.activity.call}
      (mem : other ∈ others) (proceeds : v.Proceeds b other.ongoing ongoing b') :
      Beside v others b b'
  | drifts {b' : v.State} (drifts : v.Drifts b b') : Beside v others b b'

/-- A cycle that goes on is still about its source, with the same ticket of a compile. -/
theorem Activity.cycle_of_next [ImageDecoder] {a : Activity} {e : Engine} {reply : a.call.Reply}
    {next : Cycle} (goesOn : .cycle next ∈ (a.resume e reply).2.next) :
    ∃ c, a = .cycle c ∧ next.source = c.source ∧
      (Activity.cycle next).compileTicket? = (Activity.cycle c).compileTicket? := by
  have advances := a.resume_advances e reply
  revert goesOn advances
  generalize a.resume e reply = resumed
  rintro goesOn (_ | ⟨_, succeeds⟩)
  · cases goesOn
  · obtain ⟨⟩ := List.mem_singleton.mp goesOn
    exact ⟨_, rfl, succeeds.source, succeeds.compileTicket?⟩

/-- A cycle with the ticket of a compile was started as that compile, with its source. -/
theorem BusyEngine.started_of_run [ImageDecoder] {engine : Engine}
    {moves : List (Move BusyEngine BusyEngine.Act)} {s : BusyEngine}
    (run : Run BusyEngine.Step (.idle engine) moves s) {c : Cycle} (waits : .cycle c ∈ s.waiting)
    {ticket : Ticket} (held : ticket ∈ (Activity.cycle c).compileTicket?) :
    ∃ u v, ⟨u, .starts (.compile c.source) (.cycle (.persisting c.source ticket)), v⟩ ∈ moves := by
  induction run generalizing c with
  | nil => cases waits
  | @snoc moves s t act earlier step inductionHypothesis =>
    have old : ∀ {c : Cycle}, .cycle c ∈ s.waiting → ticket ∈ (Activity.cycle c).compileTicket? →
        ∃ u v, ⟨u, .starts (.compile c.source) (.cycle (.persisting c.source ticket)), v⟩ ∈
          moves ++ [⟨s, act, t⟩] := by
      intro c waits held
      obtain ⟨u, v, started⟩ := inductionHypothesis waits held
      exact ⟨u, v, List.mem_append_left _ started⟩
    cases step with
    | starts demand =>
      rcases List.mem_append.mp waits with before | new
      · exact old before held
      · have new := List.mem_singleton.mp new
        cases demand with
        | compile source =>
          cases new
          cases held
          exact ⟨_, _, List.mem_concat_self⟩
        | render source =>
          cases new
          cases held
        | click text page x y => cases new
    | resets => exact old waits held
    | @resumes before after a waited reply =>
      rcases beside_or_next waits with same | new
      · exact old (mem_of_beside waited same) held
      · obtain ⟨c', rfl, source, ticket⟩ := Activity.cycle_of_next new
        rw [source]
        exact old (waited ▸ List.mem_append_cons_self) (ticket ▸ held)

namespace Coupling

variable {v : Service}

theorem split_of_mem {errands before after : List (Errand v)} {errand other : Errand v}
    (waits : errands = before ++ other :: after) (mem : errand ∈ before ++ after) :
    ∃ first rest, errands = first ++ errand :: rest ∧ other ∈ first ++ rest := by
  rcases List.mem_append.mp mem with left | right
  · obtain ⟨first, rest, rfl⟩ := List.append_of_mem left
    exact ⟨first, rest ++ other :: after, by simp [waits], by simp⟩
  · obtain ⟨first, rest, rfl⟩ := List.append_of_mem right
    exact ⟨before ++ other :: first, rest, by simp [waits], by simp⟩

/-- A ticket is held by one operation only. -/
theorem held_alone {l : Ledger} {record : List Nat} {s : Coupling v}
    {before after : List (Errand v)} {errand other : Errand v} {ticket : Ticket}
    (sound : l.Sound record s.busyEngine) (waits : s.errands = before ++ errand :: after)
    (held : ticket ∈ l.held errand.activity) (mem : other ∈ before ++ after) :
    ticket ∉ l.held other.activity := by
  have waiting : s.busyEngine.waiting = before.map Errand.activity ++
      errand.activity :: after.map Errand.activity := by
    rw [busyEngine, waits, List.map_append, List.map_cons]
  apply sound.alone waiting held
  rw [← List.map_append]
  exact List.mem_map_of_mem mem

theorem alone {record : List Nat} {s : Coupling v} {before after : List (Errand v)}
    {errand other : Errand v} {ticket : Ticket}
    (sound : Ledger.compiledFetches.Sound record s.busyEngine)
    (waits : s.errands = before ++ errand :: after)
    (held : ticket ∈ errand.activity.compileTicket?) (mem : other ∈ before ++ after) :
    ticket ∉ other.activity.compileTicket? :=
  held_alone sound waits held mem

variable [ImageDecoder]

/-- What a step means to an operation that holds the latest ticket of a compile after
    it. -/
inductive Bears (s : Coupling v) (act : Option BusyEngine.Act) (t : Coupling v) (ticket : Ticket) :
    Errand v → Prop
  /-- It was started. -/
  | begun (source : Snapshot)
      (issued : t.service = (v.issue s.service (.cycle (.persisting source ticket))).2) :
      Bears s act t ticket (v.issue s.service (.cycle (.persisting source ticket))).1
  /-- The answer to its call was delivered. -/
  | resumed {before after : List (Errand v)} {c next : Cycle} {ongoing : v.Ongoing c.call}
      {reply : c.call.Reply} {b : v.State}
      (waited : s.errands = before ++ ⟨.cycle c, ongoing⟩ :: after)
      (held : ticket ∈ (Activity.cycle c).compileTicket?)
      (current : (Activity.cycle c).IsCurrent s.engine.counters)
      (answers : v.Answers s.service ongoing reply b)
      (succeeds : c.Succeeds s.engine reply next t.engine.counters)
      (did : act = some (.resumes (.cycle c) reply (.waits (.cycle next))))
      (issued : t.service = (v.issue b (.cycle next)).2) :
      Bears s act t ticket (v.issue b (.cycle next)).1
  /-- The service went on with its call. -/
  | proceeded {before after : List (Errand v)} {errand : Errand v}
      {ongoing : v.Ongoing errand.activity.call}
      (waited : s.errands = before ++ errand :: after)
      (current : s.engine.compiles.isCurrent ticket)
      (proceeds : v.Proceeds s.service errand.ongoing ongoing t.service) :
      Bears s act t ticket ⟨errand.activity, ongoing⟩
  /-- Something else happened. -/
  | beside {before after : List (Errand v)} {errand : Errand v}
      (waited : s.errands = before ++ errand :: after)
      (current : s.engine.compiles.isCurrent ticket)
      (beside : v.Beside (before ++ after) s.service t.service) :
      Bears s act t ticket errand

/-- A ticket that is the latest of its sequence after a step was so before. -/
theorem held_before {l : Ledger} {record : List Nat} {s t : Coupling v}
    {act : Option BusyEngine.Act} {errand : Errand v} {ticket : Ticket}
    (sound : l.Sound record s.busyEngine) (step : Step s act t) (waits : errand ∈ s.errands)
    (held : ticket ∈ l.held errand.activity)
    (latest : (l.sequence t.engine.counters).isCurrent ticket) :
    (l.sequence s.engine.counters).isCurrent ticket ∧
      (l.sequence s.engine.counters).latest = (l.sequence t.engine.counters).latest := by
  have issued : ticket.number ≤ (l.sequence s.engine.counters).latest :=
    sound.issued _ (List.mem_append_right _ (List.mem_flatMap.mpr
      ⟨errand.activity, List.mem_map_of_mem waits, Ledger.mem_numbers.mpr held⟩))
  have grows : (l.sequence s.engine.counters).latest ≤ (l.sequence t.engine.counters).latest := by
    have seen := step.busyEngine
    cases act with
    | none =>
      exact Nat.le_of_eq (congrArg (fun t => (l.sequence t.engine.counters).latest) seen).symm
    | some act => exact l.grows seen.before
  rw [Sequence.isCurrent_iff] at latest ⊢
  omega

theorem latest_before {record : List Nat} {s t : Coupling v} {act : Option BusyEngine.Act}
    {errand : Errand v} {ticket : Ticket}
    (sound : Ledger.compiledFetches.Sound record s.busyEngine) (step : Step s act t)
    (waits : errand ∈ s.errands) (held : ticket ∈ errand.activity.compileTicket?)
    (latest : t.engine.compiles.isCurrent ticket) :
    s.engine.compiles.isCurrent ticket ∧
      s.engine.compiles.latest = t.engine.compiles.latest :=
  held_before sound step waits held latest

/-- A start means nothing to the others, unless it is the start of a compile. -/
theorem bears_of_start {record : List Nat} {s : Coupling v}
    (sound : Ledger.compiledFetches.Sound record s.busyEngine) (demand : Demand)
    {errand : Errand v} {ticket : Ticket}
    (mem : errand ∈ s.errands ++ [(v.issue s.service (demand.start s.engine).2).1])
    (held : ticket ∈ errand.activity.compileTicket?)
    (latest : (demand.start s.engine).1.compiles.isCurrent ticket) :
    Bears s (some (.starts demand (demand.start s.engine).2))
      ⟨(demand.start s.engine).1, (v.issue s.service (demand.start s.engine).2).2,
        s.errands ++ [(v.issue s.service (demand.start s.engine).2).1]⟩ ticket errand := by
  rcases List.mem_append.mp mem with old | new
  · have before := latest_before sound (.starts s demand) old held latest
    obtain ⟨first, rest, waited⟩ := List.append_of_mem old
    cases demand with
    | compile source =>
      have grown := congrArg (fun k => k.compiles.latest) (s.engine.startCompile_counters source)
      simp only [Demand.start, Engine.counters] at before grown
      omega
    | render source =>
      exact .beside waited before.1 (.asks .still trivial)
    | click text page x y =>
      exact .beside waited before.1 (.asks .still trivial)
  · obtain rfl := List.mem_singleton.mp new
    cases demand with
    | compile source =>
      cases held
      exact .begun source rfl
    | render source => cases held
    | click text page x y => cases held

/-- An answer to another operation than the latest compile: what is called after it is a
    question. -/
theorem beside_of_resume {s : Coupling v} {others : List (Errand v)} {other : Errand v}
    {ticket : Ticket} (latest : s.engine.compiles.isCurrent ticket) (mem : other ∈ others)
    (apart : ticket ∉ other.activity.compileTicket?) {reply : other.activity.call.Reply}
    {b : v.State} (answers : v.Answers s.service other.ongoing reply b) :
    v.Beside others s.service (v.dispatch b (other.activity.resume s.engine reply).2).2 := by
  have beside : v.Beside others s.service b := .answers mem answers
  obtain ⟨activity, ongoing⟩ := other
  have advances := activity.resume_advances s.engine reply
  dsimp only at apart reply answers ⊢
  revert advances
  generalize activity.resume s.engine reply = step
  rintro (_ | ⟨current, succeeds⟩)
  · exact beside
  · refine beside.asks (succeeds.isQuestion (Option.eq_none_iff_forall_not_mem.mpr ?_))
    intro shared held
    have same := Sequence.isCurrent_iff.mp (current.1 shared held)
    rw [Sequence.isCurrent_iff] at latest
    obtain rfl : shared = ticket := congrArg Ticket.mk (same.trans latest.symm)
    exact apart held

/-- What an answer means to an operation with the latest ticket of a compile: the
    answer was its own, or that of another one. -/
theorem bears_of_resume {record : List Nat} {s : Coupling v}
    (sound : Ledger.compiledFetches.Sound record s.busyEngine)
    {before after : List (Errand v)} {other : Errand v}
    (waits : s.errands = before ++ other :: after)
    {reply : other.activity.call.Reply} {b : v.State}
    (answers : v.Answers s.service other.ongoing reply b)
    {errand : Errand v} {ticket : Ticket}
    (mem : errand ∈ before ++ (v.dispatch b (other.activity.resume s.engine reply).2).1 ++ after)
    (held : ticket ∈ errand.activity.compileTicket?)
    (latest : (other.activity.resume s.engine reply).1.compiles.isCurrent ticket) :
    Bears s (some (.resumes other.activity reply (other.activity.resume s.engine reply).2))
      ⟨(other.activity.resume s.engine reply).1,
        (v.dispatch b (other.activity.resume s.engine reply).2).2,
        before ++ (v.dispatch b (other.activity.resume s.engine reply).2).1 ++ after⟩
      ticket errand := by
  have step := Step.resumes before waits answers
  rcases beside_or_next mem with same | new
  · obtain ⟨first, rest, waited, mem'⟩ := split_of_mem waits same
    obtain ⟨current, -⟩ := latest_before sound step (mem_of_beside waits same) held latest
    exact .beside waited current
      (beside_of_resume current mem' (alone sound waited held mem') answers)
  · clear mem step
    obtain ⟨activity, ongoing⟩ := other
    have advances := activity.resume_advances s.engine reply
    dsimp only at waits reply answers new latest ⊢
    revert advances
    generalize activity.resume s.engine reply = step at *
    rintro (_ | ⟨current, succeeds⟩)
    · cases new
    · obtain rfl := List.mem_singleton.mp new
      exact .resumed waits (succeeds.compileTicket? ▸ held) current answers succeeds rfl rfl

/-- What a step means to an operation that holds the latest ticket of a compile. -/
theorem Step.bears {record : List Nat} {s t : Coupling v} {act : Option BusyEngine.Act}
    (sound : Ledger.compiledFetches.Sound record s.busyEngine) (step : Step s act t)
    {errand : Errand v} {ticket : Ticket} (mem : errand ∈ t.errands)
    (held : ticket ∈ errand.activity.compileTicket?)
    (latest : t.engine.compiles.isCurrent ticket) : Bears s act t ticket errand := by
  have whole := step
  cases step with
  | starts demand => exact bears_of_start sound demand mem held latest
  | resets =>
    obtain ⟨first, rest, waited⟩ := List.append_of_mem mem
    exact .beside waited (latest_before sound whole mem held latest).1 .still
  | @resumes before after other waits reply service answers =>
    exact bears_of_resume sound waits answers mem held latest
  | @proceeds before after other waits ongoing service proceeds =>
    rcases eq_or_beside rfl mem with rfl | same
    · exact .proceeded waits latest proceeds
    · obtain ⟨first, rest, waited, mem'⟩ := split_of_mem waits same
      have old := mem_of_beside waits same
      exact .beside waited (latest_before sound whole old held latest).1 (.proceeds mem' proceeds)
  | drifts drifts =>
    obtain ⟨first, rest, waited⟩ := List.append_of_mem mem
    exact .beside waited (latest_before sound whole mem held latest).1 (.drifts drifts)

def compiles? : Option BusyEngine.Act → Option Snapshot
  | some (.starts (.compile source) _) => some source
  | _ => none

def sources (moves : List (Move (Coupling v) (Option BusyEngine.Act))) : List Snapshot :=
  moves.filterMap fun move => compiles? move.act

/-- The books of the engine are in order after every run. -/
theorem sound_of_run (l : Ledger) {engine : Engine} {service : v.State} {s : Coupling v}
    {moves : List (Move (Coupling v) (Option BusyEngine.Act))}
    (run : Run Step (.idle engine service) moves s) :
    l.Sound (l.record (engineMoves moves)) s.busyEngine :=
  Ledger.sound_of_run (run_busyEngine run)

omit [ImageDecoder] in
theorem mem_engineMoves {moves : List (Move (Coupling v) (Option BusyEngine.Act))}
    {u w : BusyEngine} {act : BusyEngine.Act} (mem : ⟨u, act, w⟩ ∈ engineMoves moves) :
    ∃ u' w', ⟨u', some act, w'⟩ ∈ moves := by
  obtain ⟨⟨u', did, w'⟩, found, seen⟩ := List.mem_filterMap.mp mem
  obtain ⟨act, rfl, ⟨⟩⟩ := Option.map_eq_some_iff.mp seen
  exact ⟨u', w', found⟩

/-- A cycle with the ticket of a compile was started as that compile, with its source. -/
theorem started_of_run {engine : Engine} {service : v.State} {s : Coupling v}
    {moves : List (Move (Coupling v) (Option BusyEngine.Act))}
    (run : Run Step (.idle engine service) moves s) {c : Cycle} {ongoing : v.Ongoing c.call}
    (waits : ⟨.cycle c, ongoing⟩ ∈ s.errands) {ticket : Ticket}
    (held : ticket ∈ (Activity.cycle c).compileTicket?) :
    ∃ u w, ⟨u, some (.starts (.compile c.source) (.cycle (.persisting c.source ticket))), w⟩ ∈
      moves := by
  obtain ⟨u, w, started⟩ := BusyEngine.started_of_run (run_busyEngine run)
    (List.mem_map_of_mem (f := Errand.activity) waits) held
  exact mem_engineMoves started

/-- Nothing is compiled in a step that leaves the latest compile the latest. -/
theorem Step.compiles?_none {s t : Coupling v} {act : Option BusyEngine.Act} (step : Step s act t)
    {ticket : Ticket} (before : s.engine.compiles.isCurrent ticket)
    (after : t.engine.compiles.isCurrent ticket) : compiles? act = none := by
  cases step with
  | starts demand =>
    cases demand with
    | compile source =>
      have grown := congrArg (fun k => k.compiles.latest) (s.engine.startCompile_counters source)
      rw [Sequence.isCurrent_iff] at before after
      simp only [Demand.start, Engine.counters] at after grown
      omega
    | render | click => rfl
  | _ => rfl

omit [ImageDecoder] in
theorem sources_snoc (moves : List (Move (Coupling v) (Option BusyEngine.Act)))
    (move : Move (Coupling v) (Option BusyEngine.Act)) :
    sources (moves ++ [move]) = sources moves ++ (compiles? move.act).toList := by
  rw [sources, List.filterMap_append]
  cases compiled : compiles? move.act <;> simp [sources, compiled]

/-- The source of a compile whose answer is taken and good, so that its render begins. -/
def answered? : Option BusyEngine.Act → Option Snapshot
  | some (.resumes (.cycle (.compiling source _)) (.ok _) (.waits _)) => some source
  | _ => none

/-- An answer is taken while the compile is the latest, and begins a render. -/
theorem Step.of_answered? {s t : Coupling v} {act : Option BusyEngine.Act} (step : Step s act t)
    {source : Snapshot} (answered : answered? act = some source) :
    ∃ ticket ongoing diagnostics b, ⟨.cycle (.compiling source ticket), ongoing⟩ ∈ s.errands ∧
      v.Answers s.service ongoing (.ok diagnostics) b ∧ s.engine.compiles.isCurrent ticket ∧
      s.engine.renders.latest < t.engine.renders.latest := by
  unfold answered? at answered
  split at answered
  · next source' ticket diagnostics next =>
    cases answered
    obtain ⟨before, after, ongoing, b, waits, answers, goesOn, became⟩ := step.of_resumes
    refine ⟨ticket, ongoing, diagnostics, b, waits ▸ List.mem_append_cons_self, answers, ?_⟩
    have advances :=
      Activity.resume_advances (.cycle (.compiling source ticket)) s.engine (.ok diagnostics)
    rw [became]
    revert goesOn advances
    generalize Activity.resume s.engine (.cycle (.compiling source ticket)) (.ok diagnostics) = r
    rintro goesOn (_ | ⟨current, succeeds⟩)
    · cases goesOn
    · exact ⟨current.1 ticket rfl, succeeds.renders_grow⟩
  · cases answered

omit [ImageDecoder] in
/-- Nothing is compiled anew in a step that takes an answer. -/
theorem compiles?_of_answered? {act : Option BusyEngine.Act} {source : Snapshot}
    (answered : answered? act = some source) : compiles? act = none := by
  unfold answered? at answered
  split at answered
  · rfl
  · cases answered

/-- The latest compile is that of the source that was started last. -/
theorem latest_source {engine : Engine} {service : v.State} {s : Coupling v}
    {moves : List (Move (Coupling v) (Option BusyEngine.Act))}
    (run : Run Step (.idle engine service) moves s) {errand : Errand v} (waits : errand ∈ s.errands)
    {ticket : Ticket} (held : ticket ∈ errand.activity.compileTicket?)
    (latest : s.engine.compiles.isCurrent ticket) {c : Cycle} (cycle : errand.activity = .cycle c) :
    (sources moves).getLast? = some c.source := by
  induction run generalizing errand c with
  | nil => cases waits
  | @snoc moves s t act earlier step inductionHypothesis =>
    have sound := sound_of_run .compiledFetches earlier
    -- whoever held the ticket before was started with the last source, and none was started since
    have old : ∀ {other : Errand v} {c : Cycle}, other ∈ s.errands →
        ticket ∈ other.activity.compileTicket? → other.activity = .cycle c →
        (sources (moves ++ [⟨s, act, t⟩])).getLast? = some c.source := by
      intro other c mem held cycle
      have before := (latest_before sound step mem held latest).1
      rw [sources_snoc, step.compiles?_none before latest, Option.toList_none, List.append_nil]
      exact inductionHypothesis mem held before cycle
    cases step.comes waits with
    | waited mem => exact old mem held cycle
    | starts demand did =>
      subst did
      cases demand with
      | compile source =>
        cases cycle
        rw [sources_snoc]
        exact List.getLast?_concat
      | render | click => cases held
    | goesOn mem current answers succeeds =>
      cases cycle
      rw [succeeds.source]
      exact old mem (succeeds.compileTicket? ▸ held) rfl
    | proceeds mem proceeds => exact old mem held cycle

end Coupling

end Preview

end LivePreview
