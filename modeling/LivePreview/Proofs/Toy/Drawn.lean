import LivePreview.Proofs.Preview.Keys
import LivePreview.Proofs.Toy.OwnText

/-!
# Pages as they are drawn

While no page is arranged to be unreadable, every page is delivered as it is drawn.  So the pages
that a compile fetches while its ticket is the latest are those of its own source
(`own_of_run`), and the slots get their keys (`Own.renders`).
-/

namespace LivePreview.Toy

open Preview (Activity Coupling Counters Cycle Ledger Plan BusyEngine)

/-- The page that the cursor of a source is on. -/
def cursorPage (source : Snapshot) : Nat :=
  (locate source.content source.cursor).1

/-! ## Pages that are delivered -/

namespace Backend

variable {b : Backend} {text : String}

theorem pages_of_compiled (compiled : b.compiled = some text) : b.pages = splitPages text := by
  rw [pages, compiled]
  rfl

theorem page_drawn (clean : b.corrupt = []) (index : Nat) (text : String) :
    (b.page index text).index = index ∧ (b.page index text).data = pagePng text := by
  simp [page, clean]

theorem allPages_keys (clean : b.corrupt = []) :
    (b.allPages.zipIdx.map fun (page, i) => PageKey.of page.data i) = keysOf b.pages := by
  refine List.ext_getElem? fun i => ?_
  simp only [allPages, List.getElem?_map, List.getElem?_zipIdx, keysOf_getElem?, Option.map_map]
  refine congrArg (Option.map · _) (funext fun text => ?_)
  simp [Function.comp_def, (page_drawn clean i text).2]

/-- All pages come with their own keys. -/
theorem respond_allPages_keys (clean : b.corrupt = []) (compiled : b.compiled = some text)
    {pages : List Page} (ok : (b.respond .renderAllPages).1.reply = .ok pages) :
    (pages.zipIdx.map fun (page, i) => PageKey.of page.data i) = keysOf (splitPages text) := by
  have same : (b.begin .renderAllPages).2.2.pages = splitPages text := pages_of_compiled compiled
  revert ok
  simp only [respond, answer]
  split
  · intro ok
    cases ok
  · intro ok
    rw [← Except.ok.inj ok, ← same]
    exact allPages_keys clean

/-- A page that is asked for comes as it is drawn. -/
theorem respond_page_drawn (clean : b.corrupt = []) (compiled : b.compiled = some text)
    {index : Nat} {page : Page} (ok : (b.respond (.renderPage index)).1.reply = .ok page) :
    page.index = index ∧
      ∃ shown, (splitPages text)[index]? = some shown ∧ page.data = pagePng shown := by
  have same : (b.begin .renderPage).2.2.pages = splitPages text := pages_of_compiled compiled
  revert ok
  simp only [respond, answer, same]
  split
  · intro ok
    cases ok
  · split
    · next shown found =>
      intro ok
      rw [← Except.ok.inj ok]
      obtain ⟨place, data⟩ := page_drawn (b := (b.begin .renderPage).2.2) clean index shown
      exact ⟨place, shown, found, data⟩
    · intro ok
      cases ok

end Backend

/-! ## Fetches -/

/-- Whether the reply to a cycle that fetches pages brings those of a list that is `Good`. -/
def Brings (Good : List String → Prop) : (c : Cycle) → c.call.Reply → Prop
  | .fetchingAll _ _, reply => ∀ pages, reply = .ok pages → ∃ texts, Good texts ∧
      (pages.zipIdx.map fun (page, i) => PageKey.of page.data i) = keysOf texts
  | .fetchingPage _ _ index, reply => ∀ page, reply = .ok page → page.index = index ∧
      ∃ texts text, Good texts ∧ texts[index]? = some text ∧ page.data = pagePng text
  | _, _ => True

variable {Good : List String → Prop}

/-- The pages of the text that was compiled last are brought. -/
theorem brings_of_compiled {b : Backend} (clean : b.corrupt = []) {text : String}
    (compiled : b.compiled = some text) (good : Good (splitPages text)) (c : Cycle) :
    Brings Good c (b.respond c.call).1.reply := by
  cases c with
  | fetchingAll r cursor =>
    exact fun pages ok => ⟨_, good, Backend.respond_allPages_keys clean compiled ok⟩
  | fetchingPage r cursor index =>
    intro page ok
    obtain ⟨place, shown, found, data⟩ := Backend.respond_page_drawn clean compiled ok
    exact ⟨place, _, shown, good, found, data⟩
  | _ => trivial

theorem Brings.of_answer {c : Cycle} {ongoing reply : c.call.Reply} (brings : Brings Good c ongoing)
    (answer : reply = ongoing ∨ ∃ after, reply = .error (.timeout c.call.operation after)) :
    Brings Good c reply := by
  rcases answer with rfl | ⟨after, rfl⟩
  · exact brings
  · cases c with
    | fetchingAll r cursor => exact fun _ ok => nomatch ok
    | fetchingPage r cursor index => exact fun _ ok => nomatch ok
    | _ => trivial

/-! ## Compiles bring their own pages -/

/-- A cycle that comes to fetch pages is brought those of its own text. -/
theorem Heeds.brings {b : Backend} (clean : b.corrupt = []) {e : Preview.Engine}
    {c next : Cycle} {reply : c.call.Reply} {k : Counters} (heeds : Heeds b c reply)
    (succeeds : c.Succeeds e reply next k) :
    Brings (Eq (splitPages next.source.content)) next (b.respond next.call).1.reply := by
  cases succeeds with
  | fetchingAll r cursor count full =>
    exact brings_of_compiled clean heeds.1 rfl (.fetchingAll r cursor)
  | fetchingPage r cursor count index single =>
    exact brings_of_compiled clean heeds.1 rfl (.fetchingPage r cursor index)
  | _ => trivial

/-- Whoever holds the latest ticket of a compile is brought its own pages. -/
def Own (s : Coupling service) : Prop :=
  ∀ errand ∈ s.errands, ∀ ticket ∈ errand.activity.compileTicket?,
    s.engine.compiles.isCurrent ticket →
      ∀ c ongoing, errand = ⟨.cycle c, ongoing⟩ →
        Brings (Eq (splitPages c.source.content)) c ongoing

theorem Own.step [ImageDecoder] {record : List Nat} {s t : Coupling service}
    {act : Option BusyEngine.Act} (own : Own s) (owned : Owned s) (clean : s.service.corrupt = [])
    (sound : Ledger.compiledFetches.Sound record s.busyEngine) (step : Coupling.Step s act t) :
    Own t := by
  intro errand mem ticket held latest
  cases step.bears sound mem held latest with
  | begun source issued =>
    rintro c ongoing ⟨⟩
    trivial
  | resumed waited holds current answers succeeds did issued =>
    rintro c' ongoing' ⟨⟩
    have waiting : (⟨.cycle _, _⟩ : Preview.Errand service) ∈ s.errands :=
      waited ▸ List.mem_append_cons_self
    have heeds := owned _ waiting ticket holds (current.1 ticket holds) _ _ rfl
    obtain ⟨rfl, answer⟩ := answers
    exact (heeds.of_answer answer).brings clean succeeds
  | proceeded waited current proceeds => exact proceeds.elim
  | beside waited current beside =>
    rintro c ongoing rfl
    have waiting : (⟨.cycle c, ongoing⟩ : Preview.Errand service) ∈ s.errands :=
      waited ▸ List.mem_append_cons_self
    exact own _ waiting ticket held current c ongoing rfl

/-! ## What is rendered -/

/-- Whether a plan fetches a page. -/
def fetchesPage (i : Nat) : Plan → Bool
  | .full => true
  | .single p => p == i

/-- The pages that a cycle has rendered have the keys of those that it was brought, and the others
    are left alone. -/
theorem Brings.drawn {e : Preview.Engine} {c : Cycle} {reply : c.call.Reply}
    (brings : Brings Good c reply) {plan : Plan} {keys : List PageKey}
    (renders : c.Renders e reply plan keys) :
    ∃ texts, Good texts ∧
      ∀ i : Nat, keys[i]? = if fetchesPage i plan then (keysOf texts)[i]? else e.keys[i]? := by
  cases renders with
  | @all r cursor pages keys drawn =>
    obtain ⟨texts, good, own⟩ := brings pages rfl
    exact ⟨texts, good, fun i => by simp only [fetchesPage, if_true, drawn, own]⟩
  | @one r cursor page keys within drawn =>
    obtain ⟨-, texts, text, good, found, data⟩ := brings page rfl
    refine ⟨texts, good, fun i => ?_⟩
    by_cases same : page.index = i
    · subst same
      rw [fetchesPage, beq_self_eq_true, if_pos rfl, drawn, List.getElem?_set_self within,
        keysOf_getElem?, found, data]
      rfl
    · simp [fetchesPage, same, drawn, List.getElem?_set_ne]

/-- A cycle that has rendered has fetched the page of its cursor. -/
theorem Heeds.rendered_cursor {b : Backend} {e : Preview.Engine} {c : Cycle} {reply : c.call.Reply}
    (heeds : Heeds b c reply) {plan : Plan} {keys : List PageKey}
    (renders : c.Renders e reply plan keys) : fetchesPage (cursorPage c.source) plan := by
  cases renders with
  | all drawn => rfl
  | one within drawn => exact beq_iff_eq.mpr heeds.1

theorem own_of_run [ImageDecoder] {engine : Preview.Engine} {backend : Backend}
    {s : Coupling service} {moves : List (Move (Coupling service) (Option BusyEngine.Act))}
    (run : Run Coupling.Step (.idle engine backend) moves s)
    (clean : ∀ move ∈ moves, move.before.service.corrupt = []) : Owned s ∧ Own s := by
  induction run with
  | nil => exact ⟨(fun _ mem => nomatch mem), fun _ mem => nomatch mem⟩
  | @snoc moves s t act earlier step inductionHypothesis =>
    rw [List.forall_mem_append, List.forall_mem_singleton] at clean
    obtain ⟨owned, own⟩ := inductionHypothesis clean.1
    have sound := Coupling.sound_of_run .compiledFetches earlier
    exact ⟨owned.step sound step, own.step owned clean.2 sound step⟩

/-- A compile that renders has fetched the page of its cursor, and the pages it has fetched are its
    own. -/
theorem Own.renders [ImageDecoder] {s t : Coupling service} {act : Option BusyEngine.Act}
    (own : Own s) (owned : Owned s) (step : Coupling.Step s act t) {c : Cycle} {plan : Plan}
    (renders : Coupling.rendered? act = some (c, plan)) {ticket : Preview.Ticket}
    (compiles : ticket ∈ (Activity.cycle c).compileTicket?) :
    fetchesPage (cursorPage c.source) plan ∧ ∀ i, t.engine.keys[i]? =
      if fetchesPage i plan then (keysOf (splitPages c.source.content))[i]?
      else s.engine.keys[i]? := by
  obtain ⟨before, after, ongoing, reply, b, waits, answers, current, draws, rfl⟩ :=
    step.of_rendered? renders
  have waiting : (⟨.cycle c, ongoing⟩ : Preview.Errand service) ∈ s.errands :=
    waits ▸ List.mem_append_cons_self
  have latest := current.1 ticket compiles
  have heeds := (owned _ waiting ticket compiles latest c ongoing rfl).of_answer answers.2
  have brings := (own _ waiting ticket compiles latest c ongoing rfl).of_answer answers.2
  obtain ⟨_, rfl, drawn⟩ := brings.drawn draws
  exact ⟨heeds.rendered_cursor draws, drawn⟩

end LivePreview.Toy
