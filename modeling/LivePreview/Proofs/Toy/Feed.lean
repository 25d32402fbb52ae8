import LivePreview.Proofs.Toy.Drawn

/-!
# What can be fetched

Some lists of pages are `Good`, say those in which a certain page is the one that is wanted.  While
the text that was compiled has good pages, the one that may be compiled next has, and no other pages
are on their way (`Fed`), only good pages are put on display.  This begins when the answer to the
latest compile is taken, since what older renders have fetched is dropped then (`fed_of_answered`).
-/

namespace LivePreview.Toy

open Preview (Activity Coupling Cycle Plan BusyEngine)
open Preview.Coupling (compiles? rendered? sources)

/-! ## What the backend compiles -/

theorem Backend.respond_persist_compiled (b : Backend) (path : Path) (text : String) :
    (b.respond (.persistSource path text)).2.compiled = b.compiled := by
  simp only [respond, answer]
  split <;> rfl

theorem Backend.respond_compile_compiled (b : Backend) :
    (b.respond .compile).2.compiled = b.compiled ∨
      (b.respond .compile).2.compiled = some b.persisted := by
  simp only [respond, answer]
  split
  · exact .inl rfl
  · split
    · exact .inl rfl
    · exact .inr rfl

/-- When a cycle goes on, the text that was compiled stays, or its source is compiled. -/
theorem compiled_of_succeeds {b : Backend} {e : Preview.Engine} {c next : Cycle}
    {reply : c.call.Reply} {k : Preview.Counters} (succeeds : c.Succeeds e reply next k)
    (heeds : ∀ ticket ∈ c.pendingTicket?, Heeds b c reply) :
    (b.respond next.call).2.compiled = b.compiled ∨
      c.pendingTicket?.isSome ∧ (b.respond next.call).2.compiled = some c.source.content := by
  cases succeeds with
  | compiling source ticket =>
    have written : b.persisted = source.content := heeds ticket rfl rfl
    exact b.respond_compile_compiled.imp_right fun compiled =>
      ⟨rfl, compiled.trans (congrArg some written)⟩
  | _ => exact .inl (Backend.respond_compiled _ trivial)

/-- The text that was compiled stays, or the source of the latest compile is compiled. -/
theorem compiled_step [ImageDecoder] {s t : Coupling service} {act : Option BusyEngine.Act}
    (step : Coupling.Step s act t) (owned : Owned s) :
    t.service.compiled = s.service.compiled ∨
      ∃ errand ∈ s.errands, ∃ ticket ∈ errand.activity.pendingTicket?,
        s.engine.compiles.isCurrent ticket ∧ ∃ c, errand.activity = .cycle c ∧
          t.service.compiled = some c.source.content := by
  cases step with
  | starts demand =>
    cases demand with
    | compile source => exact .inl (Backend.respond_persist_compiled ..)
    | render source => exact .inl (Backend.respond_compiled _ trivial)
    | click text page x y => exact .inl (Backend.respond_compiled _ trivial)
  | resets => exact .inl rfl
  | @resumes before after errand waits reply b answers =>
    obtain ⟨rfl, answer⟩ := answers
    obtain ⟨activity, ongoing⟩ := errand
    have advances := activity.resume_advances s.engine reply
    dsimp only at waits reply answer ⊢
    revert advances
    generalize activity.resume s.engine reply = step
    rintro (_ | @⟨c, next, _, _, current, succeeds⟩)
    · exact .inl rfl
    · have waiting : (⟨.cycle c, ongoing⟩ : Preview.Errand service) ∈ s.errands :=
        waits ▸ List.mem_append_cons_self
      -- what compiles has the latest ticket, and so it finds its own text
      have held : ∀ ticket ∈ c.pendingTicket?, ticket ∈ (Activity.cycle c).compileTicket? :=
        fun _ pending => Activity.compileTicket?_of_pending pending
      have compiled := compiled_of_succeeds (b := s.service) succeeds fun ticket pending =>
        (owned _ waiting ticket (held ticket pending) (current.1 ticket (held ticket pending)) c
          ongoing rfl).of_answer answer
      refine compiled.imp_right fun ⟨pending, compiled⟩ => ?_
      obtain ⟨ticket, pending⟩ := Option.isSome_iff_exists.mp pending
      exact ⟨_, waiting, ticket, pending, current.1 ticket (held ticket pending), c, rfl, compiled⟩
  | proceeds before waits proceeds => exact proceeds.elim
  | drifts drifts => exact .inl (congrArg Prod.snd drifts)

/-! ## What is fetched -/

/-- The pages that can be fetched are good: those of the text that was compiled, of the one that
    may be compiled, and those on their way to the cycle that may still take them. -/
structure Fed (Good : List String → Prop) (s : Coupling service) : Prop where
  compiled : ∃ text, s.service.compiled = some text ∧ Good (splitPages text)
  pending : ∀ errand ∈ s.errands, ∀ ticket ∈ errand.activity.pendingTicket?,
    s.engine.compiles.isCurrent ticket → ∀ c, errand.activity = .cycle c →
      Good (splitPages c.source.content)
  fetched : ∀ errand ∈ s.errands, ∀ ticket ∈ errand.activity.renderTicket?,
    s.engine.renders.isCurrent ticket → ∀ c ongoing, errand = ⟨.cycle c, ongoing⟩ →
      Brings Good c ongoing

/-- A slot shows its page of a list that is good. -/
def Shows (Good : List String → Prop) (i : Nat) (e : Preview.Engine) : Prop :=
  ∃ pages, Good pages ∧ e.keys[i]? = (keysOf pages)[i]?

theorem fed_idle {Good : List String → Prop} {engine : Preview.Engine} {backend : Backend}
    {text : String} (compiled : backend.compiled = some text) (good : Good (splitPages text)) :
    Fed Good (.idle engine backend) :=
  ⟨⟨text, compiled, good⟩, (fun _ waits => nomatch waits), fun _ waits => nomatch waits⟩

section Runs

variable [ImageDecoder] {Good : List String → Prop} {engine : Preview.Engine} {backend : Backend}
  {s t : Coupling service} {moves : List (Move (Coupling service) (Option BusyEngine.Act))}
  {act : Option BusyEngine.Act} {i : Nat}

theorem Fed.step (fed : Fed Good s) (run : Run Coupling.Step (.idle engine backend) moves s)
    (clean : ∀ move ∈ moves, move.before.service.corrupt = []) (now : s.service.corrupt = [])
    (good : ∀ source ∈ compiles? act, Good (splitPages source.content))
    (step : Coupling.Step s act t) : Fed Good t := by
  have sound := Coupling.sound_of_run .compiledFetches run
  refine ⟨?_, fun errand waits ticket pending latest c cycle => ?_,
    fun errand waits ticket held latest => ?_⟩
  · rcases compiled_step step (own_of_run run clean).1 with
      same | ⟨errand, waits, ticket, pending, latest, c, cycle, compiled⟩
    · rw [same]
      exact fed.compiled
    · exact ⟨_, compiled, fed.pending errand waits ticket pending latest c cycle⟩
  · have held := Activity.compileTicket?_of_pending pending
    cases step.comes waits with
    | waited mem =>
      have before := (Coupling.latest_before sound step mem held latest).1
      exact fed.pending _ mem ticket pending before c cycle
    | starts demand did =>
      subst did
      cases demand with
      | compile source =>
        cases cycle
        exact good source rfl
      | render | click => cases pending
    | goesOn mem current answers succeeds =>
      cases cycle
      rw [succeeds.source]
      have before := current.1 ticket (succeeds.compileTicket? ▸ held)
      exact fed.pending _ mem ticket (succeeds.pendingTicket? pending) before _ rfl
    | proceeds mem proceeds => exact proceeds.elim
  · cases step.comes waits with
    | waited mem =>
      have books := Coupling.sound_of_run .fetches run
      exact fed.fetched _ mem ticket held (Coupling.held_before books step mem held latest).1
    | starts demand did =>
      rintro c ongoing same
      cases demand with
      | compile | render =>
        cases same
        trivial
      | click => cases same
    | goesOn mem current answers succeeds =>
      rintro c ongoing ⟨⟩
      obtain ⟨rfl, -⟩ := answers
      obtain ⟨text, compiled, good⟩ := fed.compiled
      exact brings_of_compiled now compiled good _
    | proceeds mem proceeds => exact proceeds.elim

/-- What is rendered is good. -/
theorem Fed.drawn (fed : Fed Good s) (step : Coupling.Step s act t) {c : Cycle} {plan : Plan}
    (renders : rendered? act = some (c, plan)) :
    ∃ texts, Good texts ∧ ∀ i, t.engine.keys[i]? =
      if fetchesPage i plan then (keysOf texts)[i]? else s.engine.keys[i]? := by
  obtain ⟨before, after, ongoing, reply, b, waits, answers, current, draws, rfl⟩ :=
    step.of_rendered? renders
  have waiting : (⟨.cycle c, ongoing⟩ : Preview.Errand service) ∈ s.errands :=
    waits ▸ List.mem_append_cons_self
  obtain ⟨r, render⟩ := draws.render?
  have held : r.ticket ∈ (Activity.cycle c).renderTicket? := congrArg (Option.map _) render
  have brings := fed.fetched _ waiting r.ticket held (current.2.1 _ held) c ongoing rfl
  exact (brings.of_answer answers.2).drawn draws

theorem Shows.step (shows : Shows Good i s.engine) (fed : Fed Good s) (kept : act ≠ some .resets)
    (step : Coupling.Step s act t) : Shows Good i t.engine := by
  cases renders : rendered? act with
  | none =>
    rw [Shows, step.keys_of_unrendered kept renders]
    exact shows
  | some rendered =>
    obtain ⟨texts, good, drawn⟩ := fed.drawn step renders
    rw [Shows, drawn i]
    split
    · exact ⟨texts, good, rfl⟩
    · exact shows

/-- When the answer to a compile is taken, its text is the one that was compiled, and what older
    renders have fetched will not be taken. -/
theorem fed_of_answered (run : Run Coupling.Step (.idle engine backend) moves s)
    (clean : ∀ move ∈ moves, move.before.service.corrupt = []) (now : s.service.corrupt = [])
    (step : Coupling.Step s act t) {source : Snapshot}
    (answered : Coupling.answered? act = some source)
    (good : (sources moves).getLast? = some source → Good (splitPages source.content)) :
    Fed Good t := by
  obtain ⟨ticket, ongoing, diagnostics, b, waiting, ⟨-, answer⟩, latest, grown⟩ :=
    step.of_answered? answered
  have owned := (own_of_run run clean).1
  have compiled : s.service.compiled = some source.content :=
    (((owned _ waiting ticket rfl latest _ _ rfl).of_answer answer).1 diagnostics rfl).2
  have last : (sources moves).getLast? = some source :=
    Coupling.latest_source run waiting rfl latest rfl
  refine ⟨?_, fun errand mem ticket' pending latest' c cycle => ?_,
    fun errand mem ticket' held latest' => ?_⟩
  · rcases compiled_step step owned with
      same | ⟨errand, mem, ticket', pending, latest', c, cycle, own⟩
    · exact ⟨_, same.trans compiled, good last⟩
    · have same := Coupling.latest_source run mem (Activity.compileTicket?_of_pending pending)
        latest' cycle
      exact ⟨_, own, Option.some.inj (last.symm.trans same) ▸ good last⟩
  · have same := Coupling.latest_source (run.snoc step) mem
      (Activity.compileTicket?_of_pending pending) latest' cycle
    rw [Coupling.sources_snoc, Coupling.compiles?_of_answered? answered, Option.toList_none,
      List.append_nil] at same
    exact Option.some.inj (last.symm.trans same) ▸ good last
  · cases step.comes mem with
    | waited old =>
      have books := Coupling.sound_of_run .fetches run
      exact absurd (Coupling.held_before books step old held latest').2 (Nat.ne_of_lt grown)
    | starts demand did =>
      subst did
      cases answered
    | goesOn old current answers succeeds =>
      rintro c ongoing ⟨⟩
      obtain ⟨rfl, -⟩ := answers
      exact brings_of_compiled now compiled (good last) _
    | proceeds old proceeds => exact proceeds.elim

end Runs

end LivePreview.Toy
