import LivePreview.Page.Decoder
import LivePreview.Proofs.Toy.Script

/-!
# A compile shows its own text

The toy backend has one written and one compiled text for everybody.  While an
operation holds the latest ticket of a compile, nobody else writes or compiles, so
that both texts are its own from the time it wrote and compiled them (`Heeds`).
-/

namespace LivePreview.Toy

open Preview (Activity Coupling Counters Cycle Errand Ledger Plan Service BusyEngine)

/-- What the backend's texts and the answer to its call have to do with the source of a
    cycle. -/
def Heeds (b : Backend) : (c : Cycle) → c.call.Reply → Prop
  | .persisting source _, reply => reply = .ok () → b.persisted = source.content
  | .compiling source _, reply =>
    (∀ diagnostics, reply = .ok diagnostics →
      diagnostics = scanDiagnostics source.content ∧ b.compiled = some source.content) ∧
    ∀ diagnostics, reply = .error (.compile diagnostics) →
      diagnostics = scanDiagnostics source.content
  | .locating r, reply =>
    b.compiled = some r.source.content ∧
      ∀ p, reply = .ok (some p) → p.page = (locate r.source.content r.source.cursor).1
  | .counting r cursor, _ =>
    b.compiled = some r.source.content ∧
      ∀ p ∈ cursor, p.page = (locate r.source.content r.source.cursor).1
  | .fetchingAll r _, reply =>
    ∀ pages, reply = .ok pages → List.Forall₂ Renders (splitPages r.source.content) pages
  | .fetchingPage r _ index, reply =>
    index = (locate r.source.content r.source.cursor).1 ∧
      ∀ page, reply = .ok page → ∃ text,
        (splitPages r.source.content)[index]? = some text ∧ Renders text page

namespace Heeds

variable {b b' : Backend} {c : Cycle}

theorem of_texts {reply : c.call.Reply} (heeds : Heeds b c reply) (same : b'.texts = b.texts) :
    Heeds b' c reply := by
  obtain ⟨persisted, compiled⟩ := Prod.mk.inj same
  cases c <;> simpa only [Heeds, persisted, compiled] using heeds

/-- It holds as well of the answer that is delivered. -/
theorem of_answer {ongoing reply : c.call.Reply} (heeds : Heeds b c ongoing)
    (answer : reply = ongoing ∨ ∃ after, reply = .error (.timeout c.call.operation after)) :
    Heeds b c reply := by
  rcases answer with rfl | ⟨after, rfl⟩
  · exact heeds
  · cases c with
    | persisting source ticket => exact fun ok => nomatch ok
    | compiling source ticket =>
      exact ⟨(fun _ ok => nomatch ok), fun _ refused => nomatch refused⟩
    | locating r => exact ⟨heeds.1, fun _ ok => nomatch ok⟩
    | counting r cursor => exact heeds
    | fetchingAll r cursor => exact fun _ ok => nomatch ok
    | fetchingPage r cursor index => exact ⟨heeds.1, fun _ ok => nomatch ok⟩

end Heeds

/-- The call of a compile that starts writes its source. -/
theorem heeds_start (b : Backend) (source : Snapshot) (ticket : Preview.Ticket) :
    Heeds (b.respond (.persistSource source.path source.content)).2 (.persisting source ticket)
      (b.respond (.persistSource source.path source.content)).1.reply :=
  fun ok => Backend.respond_persist ok

/-- From stage to stage the texts stay those of the source. -/
theorem Heeds.next [ImageDecoder] {b : Backend} {e : Preview.Engine} {c next : Cycle}
    {reply : c.call.Reply} {k : Counters} (heeds : Heeds b c reply)
    (succeeds : c.Succeeds e reply next k) :
    Heeds (b.respond next.call).2 next (b.respond next.call).1.reply := by
  cases succeeds with
  | compiling source ticket =>
    have written : b.persisted = source.content := heeds rfl
    have compile := b.respond_compile
    rw [written] at compile
    exact compile
  | locating source ticket diagnostics =>
    have compiled := (heeds.1 diagnostics rfl).2
    exact ⟨(b.respond_compiled (by trivial)).trans compiled, fun p ok => Backend.respond_cursor ok⟩
  | countingFrom r p =>
    refine ⟨(b.respond_compiled (by trivial)).trans heeds.1, fun q same => ?_⟩
    cases same
    exact heeds.2 p rfl
  | counting r reply =>
    exact ⟨(b.respond_compiled (by trivial)).trans heeds.1, fun q same => nomatch same⟩
  | fetchingAll r cursor count full =>
    exact fun pages ok => Backend.respond_allPages heeds.1 ok
  | fetchingPage r cursor count index single =>
    obtain ⟨p, placed, rfl⟩ := Plan.position_of_single single
    exact ⟨heeds.2 p placed, fun page ok => Backend.respond_page heeds.1 ok⟩

/-! ## Whoever holds the latest ticket -/

/-- `Heeds` for whatever waits. -/
def Errand.Heeds (b : Backend) (errand : Preview.Errand service) : Prop :=
  ∀ c ongoing, errand = ⟨.cycle c, ongoing⟩ → Toy.Heeds b c ongoing

/-- Whoever holds the latest ticket of a compile finds its own texts. -/
def Owned (s : Coupling service) : Prop :=
  ∀ errand ∈ s.errands, ∀ ticket ∈ errand.activity.compileTicket?,
    s.engine.compiles.isCurrent ticket → Errand.Heeds s.service errand

/-- What happens beside an operation changes neither of the texts. -/
theorem texts_beside {others : List (Preview.Errand service)} {b b' : service.State}
    (beside : service.Beside others b b') : Backend.texts b' = Backend.texts b := by
  induction beside with
  | still => rfl
  | asks _ question inductionHypothesis =>
    exact (Backend.respond_texts _ question).trans inductionHypothesis
  | answers _ answers => exact congrArg Backend.texts answers.1
  | proceeds _ proceeds => exact proceeds.elim
  | drifts drifts => exact drifts

theorem Owned.step [ImageDecoder] {record : List Nat} {s t : Coupling service}
    {act : Option BusyEngine.Act} (owned : Owned s)
    (sound : Ledger.compiledFetches.Sound record s.busyEngine) (step : Coupling.Step s act t) :
    Owned t := by
  intro errand mem ticket held latest
  cases step.bears sound mem held latest with
  | begun source issued =>
    rintro c ongoing ⟨⟩
    exact issued ▸ heeds_start s.service source ticket
  | resumed waited holds current answers succeeds did issued =>
    rintro c' ongoing' ⟨⟩
    have waiting : (⟨.cycle _, _⟩ : Preview.Errand service) ∈ s.errands :=
      waited ▸ List.mem_append_cons_self
    have heeds := owned _ waiting ticket holds (current.1 ticket holds) _ _ rfl
    obtain ⟨rfl, answer⟩ := answers
    exact issued ▸ (heeds.of_answer answer).next succeeds
  | proceeded waited current proceeds => exact proceeds.elim
  | beside waited current beside =>
    rintro c ongoing rfl
    have waiting : (⟨.cycle c, ongoing⟩ : Preview.Errand service) ∈ s.errands :=
      waited ▸ List.mem_append_cons_self
    exact (owned _ waiting ticket held current c ongoing rfl).of_texts (texts_beside beside)

/-! ## Pages that cannot be read -/

/-- No page of a text has the fingerprint of an unreadable one. -/
def Distinct (text : String) : Prop :=
  ∀ page ∈ splitPages text, Fingerprint.of (pagePng page) ≠ Fingerprint.of unreadable

/-- A page is unreadable, or its fingerprint tells that it is not. -/
def Telling (page : Page) : Prop :=
  page.data = unreadable ∨ Fingerprint.of page.data ≠ Fingerprint.of unreadable

/-- A key that is not the one of an unreadable page. -/
def Readable (key : PageKey) (_ : PageImage) : Prop :=
  key.fingerprint ≠ Fingerprint.of unreadable

theorem distinct_empty : Distinct "" := by
  show ∀ page ∈ splitPages "", _
  decide +kernel

theorem Telling.decodes [ImageDecoder] (refuses : ∀ image, decodeImage unreadable ≠ .ok image)
    {page : Page} (telling : Telling page) : Preview.Decodes Readable page := by
  intro image decoded
  rcases telling with unread | distinct
  · exact absurd (unread ▸ decoded) (refuses image)
  · exact distinct

namespace Backend

/-- The backend has only seen texts without a page that could be taken for an
    unreadable one. -/
structure Sound (b : Backend) : Prop where
  persisted : Distinct b.persisted
  compiled : ∀ text, b.compiled = some text → Distinct text

theorem Sound.of_texts {b b' : Backend} (sound : b.Sound) (same : b'.texts = b.texts) :
    b'.Sound := by
  obtain ⟨persisted, compiled⟩ := Prod.mk.inj same
  exact ⟨persisted ▸ sound.persisted, compiled ▸ sound.compiled⟩

theorem Sound.page {b : Backend} (sound : b.Sound) {text : String} (mem : text ∈ b.pages)
    (index : Nat) : Telling (b.page index text) := by
  rcases b.page_renders index text with data | unread
  · obtain ⟨compiled, latest, mem⟩ : ∃ compiled, b.compiled = some compiled ∧
        text ∈ splitPages compiled := by
      cases compiled : b.compiled <;> simp_all [pages]
    exact .inr (data ▸ sound.compiled compiled latest text mem)
  · exact .inl unread

theorem Sound.delivered {b : Backend} (sound : b.Sound) (call : Call) :
    ∀ page ∈ Preview.delivered call (b.respond call).1.reply, Telling page := by
  intro page mem
  cases call with
  | renderAllPages =>
    have begun : (b.begin .renderAllPages).2.2.Sound := sound.of_texts rfl
    revert mem
    simp only [Backend.respond, answer]
    split
    · intro mem
      cases mem
    · intro mem
      obtain ⟨⟨text, index⟩, shown, rfl⟩ := List.mem_map.mp mem
      exact begun.page (List.mem_of_getElem? (List.mk_mem_zipIdx_iff_getElem?.mp shown)) index
  | renderPage index =>
    have begun : (b.begin .renderPage).2.2.Sound := sound.of_texts rfl
    revert mem
    simp only [Backend.respond, answer]
    split
    · intro mem
      cases mem
    · split
      · next text found =>
        intro mem
        obtain rfl := List.mem_singleton.mp mem
        exact begun.page (List.mem_of_getElem? found) index
      · intro mem
        cases mem
  | _ => cases mem

/-- It stays so as long as only such texts are written. -/
theorem Sound.respond {b : Backend} (sound : b.Sound) {call : Call}
    (writes : ∀ path text, call = .persistSource path text → Distinct text) :
    (b.respond call).2.Sound := by
  cases call with
  | persistSource path text =>
    simp only [Backend.respond, answer]
    split
    · exact sound.of_texts rfl
    · exact ⟨writes path text rfl, sound.compiled⟩
  | compile =>
    simp only [Backend.respond, answer]
    split
    · exact sound.of_texts rfl
    · split
      · exact sound.of_texts rfl
      · refine ⟨sound.persisted, fun text compiled => ?_⟩
        exact Option.some.inj compiled ▸ sound.persisted
  | setMainDocument path =>
    simp only [Backend.respond, answer]
    split
    · exact sound.of_texts rfl
    · refine ⟨sound.persisted, fun text compiled => ?_⟩
      cases compiled
  | _ =>
    simp only [Backend.respond, answer]
    first | exact sound.of_texts rfl | (split <;> exact sound.of_texts rfl)

end Backend

/-- The service has only seen and delivered such texts, and no image is kept under the key
    of an unreadable page. -/
structure Sound (s : Coupling service) : Prop where
  backend : Backend.Sound s.service
  delivers : ∀ errand ∈ s.errands,
    ∀ page ∈ Preview.delivered errand.activity.call errand.ongoing, Telling page
  cached : s.engine.state.cache.All Readable

theorem Sound.answers {s : Coupling service} (sound : Sound s) {errand : Preview.Errand service}
    (mem : errand ∈ s.errands) {reply : errand.activity.call.Reply} {b : service.State}
    (answers : service.Answers s.service errand.ongoing reply b) :
    b = s.service ∧ ∀ page ∈ Preview.delivered errand.activity.call reply, Telling page := by
  obtain ⟨same, rfl | ⟨after, rfl⟩⟩ := answers
  · exact ⟨same, sound.delivers errand mem⟩
  · refine ⟨same, ?_⟩
    cases errand.activity.call <;> exact fun _ mem => nomatch mem

/-- A call that a cycle makes later on writes nothing. -/
theorem writes_next [ImageDecoder] {e : Preview.Engine} {c next : Cycle} {reply : c.call.Reply}
    {k : Counters} (succeeds : c.Succeeds e reply next k) (path : Path) (text : String) :
    next.call ≠ .persistSource path text := by
  cases succeeds <;> exact fun same => nomatch same

theorem Sound.step [ImageDecoder] (refuses : ∀ image, decodeImage unreadable ≠ .ok image)
    {s t : Coupling service} {act : Option BusyEngine.Act} (sound : Sound s)
    (step : Coupling.Step s act t)
    (distinct : ∀ source ∈ Coupling.compiles? act, Distinct source.content) : Sound t := by
  cases step with
  | starts demand =>
    have writes : ∀ path text, (demand.start s.engine).2.call = .persistSource path text →
        Distinct text := by
      intro path text same
      cases demand with
      | compile source =>
        obtain ⟨-, rfl⟩ := Call.persistSource.inj same
        exact distinct source rfl
      | render source => cases same
      | click => cases same
    refine ⟨sound.backend.respond writes, ?_, demand.start_cache sound.cached⟩
    intro errand mem
    rcases List.mem_append.mp mem with old | new
    · exact sound.delivers errand old
    · obtain rfl := List.mem_singleton.mp new
      exact sound.backend.delivered _
  | resets => exact ⟨sound.backend, sound.delivers, s.engine.reset_cache⟩
  | @resumes before after errand waits reply b answers =>
    have mem : errand ∈ s.errands := waits ▸ List.mem_append_cons_self
    obtain ⟨rfl, telling⟩ := sound.answers mem answers
    have cached := Preview.Activity.resume_cache sound.cached
      fun page mem => (telling page mem).decodes refuses
    have others : ∀ errand ∈ before ++ after,
        ∀ page ∈ Preview.delivered errand.activity.call errand.ongoing, Telling page :=
      fun other mem => sound.delivers other (mem_of_beside waits mem)
    obtain ⟨activity, ongoing⟩ := errand
    -- a cycle that goes on only asks for pages, so the texts are those from before
    have advances := activity.resume_advances s.engine reply
    dsimp only at waits reply answers cached ⊢
    revert advances cached
    generalize activity.resume s.engine reply = step
    rintro cached (_ | ⟨_, succeeds⟩)
    · exact ⟨sound.backend, by simpa [Service.dispatch] using others, cached⟩
    · refine ⟨sound.backend.respond fun path text same => ?_, ?_, cached⟩
      · exact absurd same (writes_next succeeds path text)
      · intro other mem
        rcases beside_or_next mem with old | new
        · exact others other old
        · obtain rfl := List.mem_singleton.mp new
          exact sound.backend.delivered _
  | proceeds before waits proceeds => exact proceeds.elim
  | drifts drifts => exact ⟨sound.backend.of_texts drifts, sound.delivers, sound.cached⟩

/-! ## What is shown -/

theorem keys_of_renders {texts : List String} {pages : List Page}
    (render : List.Forall₂ Renders texts pages)
    (readable : ∀ page ∈ pages, page.data ≠ unreadable) (k : Nat) :
    ((pages.zipIdx k).map fun (page, i) => PageKey.of page.data i) =
      (texts.zipIdx k).map fun (text, i) => .of (pagePng text) i := by
  induction render generalizing k with
  | nil => rfl
  | cons shows _ inductionHypothesis =>
    obtain ⟨first, others⟩ := List.forall_mem_cons.mp readable
    simp only [List.zipIdx_cons, List.map_cons, inductionHypothesis others,
      shows.resolve_right first]

theorem Heeds.findings [ImageDecoder] {b : Backend} {e : Preview.Engine} {c : Cycle}
    {reply : c.call.Reply} (heeds : c.isStale e = false → Heeds b c reply)
    (changed : (c.resume e reply).1.findings ≠ e.findings) :
    (c.resume e reply).1.findings.diagnostics = scanDiagnostics c.source.content ∧
      (c.resume e reply).1.findings.markers =
        Marker.project c.source.content (scanDiagnostics c.source.content) := by
  rcases c.resume_findings e reply with same | ⟨diagnostics, reports, current, found⟩
  · exact absurd same changed
  · rw [found]
    obtain rfl : diagnostics = scanDiagnostics c.source.content := by
      cases reports with
      | passed source ticket => exact ((heeds current).1 diagnostics rfl).1
      | refused source ticket => exact (heeds current).2 diagnostics rfl
    exact ⟨rfl, rfl⟩

/-- The pages that a cycle has rendered are those of its source. -/
theorem Heeds.rendered [ImageDecoder] (refuses : ∀ image, decodeImage unreadable ≠ .ok image)
    {b : Backend} {e : Preview.Engine} {c : Cycle} {reply : c.call.Reply} (heeds : Heeds b c reply)
    (cached : e.state.cache.All Readable)
    (telling : ∀ page ∈ Preview.delivered c.call reply, Telling page)
    {report : Preview.RenderReport} (rendered : (c.resume e reply).2 = .ended (.rendered report)) :
    (report.plan = .full →
      (c.resume e reply).1.state.pages.map Preview.Slot.key =
        (splitPages c.source.content).zipIdx.map fun (text, i) => .of (pagePng text) i) ∧
    ∀ p, report.plan = .single p →
      p = (locate c.source.content c.source.cursor).1 ∧
      ∃ text, (splitPages c.source.content)[p]? = some text ∧
        (c.resume e reply).1.state.pages[p]?.map Preview.Slot.key =
          some (.of (pagePng text) p) := by
  obtain ⟨plan, splice, spliced, splices, planned, ok, display⟩ :=
    (c.resume_displays e reply).of_rendered rendered
  obtain ⟨pages, -⟩ := Prod.mk.inj display
  rw [pages]
  cases splices with
  | all r cursor fetched =>
    have decodes : ∀ page ∈ fetched, Preview.Decodes Readable page :=
      fun page mem => (telling page mem).decodes refuses
    obtain ⟨keys, readable⟩ := (Preview.spliceAll_shows cached decodes).2 spliced ok
    refine ⟨fun _ => ?_, fun p single => nomatch planned.symm.trans single⟩
    -- no key is that of an unreadable page, so each page is readable
    have shown : ∀ page ∈ fetched, page.data ≠ unreadable := by
      intro page mem unread
      obtain ⟨i, found⟩ := List.mem_iff_getElem?.mp mem
      have key : PageKey.of page.data i ∈
          (Preview.spliceAll e.state fetched).state.pages.map Preview.Slot.key :=
        keys ▸ List.mem_map.mpr ⟨(page, i), List.mk_mem_zipIdx_iff_getElem?.mpr found, rfl⟩
      obtain ⟨slot, mem, same⟩ := List.mem_map.mp key
      exact readable slot mem (by rw [same, unread]; rfl)
    exact keys.trans (keys_of_renders (heeds fetched rfl) shown 0)
  | one r cursor page =>
    obtain ⟨key, image, readable⟩ :=
      (Preview.spliceOne_shows cached
        ((telling page (List.mem_singleton_self page)).decodes refuses)).2 spliced ok
    refine ⟨(fun full => nomatch planned.symm.trans full), fun p single => ?_⟩
    obtain rfl := Plan.single.inj (planned.symm.trans single)
    obtain ⟨text, found, renders⟩ := heeds.2 page rfl
    have data : page.data = pagePng text :=
      renders.resolve_right fun unread => readable (congrArg Fingerprint.of unread)
    exact ⟨heeds.1, text, found, by rw [key, data]⟩

/-! ## Every run -/

/-- Nothing is under way, and the backend has seen no text. -/
def fresh (capacity : Nat) : Coupling service :=
  .idle (.start capacity) Backend.start

section Runs

variable [ImageDecoder] {capacity : Nat}
  {moves : List (Move (Coupling service) (Option BusyEngine.Act))}
  {s : Coupling service}

theorem owned_of_run (run : Run Coupling.Step (fresh capacity) moves s) : Owned s := by
  induction run with
  | nil => exact fun errand mem => nomatch mem
  | snoc earlier step inductionHypothesis =>
    exact inductionHypothesis.step (Coupling.sound_of_run .compiledFetches earlier) step

theorem sound_of_run (refuses : ∀ image, decodeImage unreadable ≠ .ok image)
    (run : Run Coupling.Step (fresh capacity) moves s)
    (distinct : ∀ source ∈ Coupling.sources moves, Distinct source.content) : Sound s := by
  induction run with
  | nil =>
    exact ⟨⟨distinct_empty, fun _ compiled => nomatch compiled⟩, (fun _ mem => nomatch mem),
      RenderCache.All.empty capacity⟩
  | snoc earlier step inductionHypothesis =>
    rw [Coupling.sources, List.filterMap_append, List.forall_mem_append] at distinct
    refine (inductionHypothesis distinct.1).step refuses step fun source compiles =>
      distinct.2 source ?_
    exact List.mem_filterMap.mpr ⟨_, List.mem_singleton_self _, compiles⟩

end Runs

/-- What a cycle that gets an answer was started with, and what it has rendered. -/
def resumed? : Option BusyEngine.Act →
    Option (Snapshot × Option Preview.Ticket × Option Preview.RenderReport)
  | some (.resumes (.cycle c) _ progress) =>
    some (c.source, (Activity.cycle c).compileTicket?, progress.report?)
  | _ => none

theorem exists_of_resumed? {move : Move (Coupling service) (Option BusyEngine.Act)}
    {source : Snapshot} {ticket : Option Preview.Ticket} {report : Option Preview.RenderReport}
    (resumed : resumed? move.act = some (source, ticket, report)) :
    ∃ c reply progress,
      move = ⟨move.before, some (.resumes (.cycle c) reply progress), move.after⟩ ∧
      c.source = source ∧ (Activity.cycle c).compileTicket? = ticket ∧
      progress.report? = report := by
  obtain ⟨before, act, after⟩ := move
  dsimp only at resumed
  unfold resumed? at resumed
  split at resumed
  · cases resumed
    exact ⟨_, _, _, rfl, rfl, rfl, rfl⟩
  · cases resumed

attribute [local instance] pngDecoder

theorem unreadable_refused (image : PageImage) : decodeImage unreadable ≠ .ok image := by
  have refused : (decodeImage unreadable).isOk = false := by decide +kernel
  intro decoded
  rw [decoded] at refused
  cases refused

/-- Two pages, and a line that is warned of. -/
def twoPages : Snapshot :=
  ⟨default, "a\n#pagebreak()\nb #warn", 20⟩

theorem distinct_twoPages : Distinct twoPages.content := by
  show ∀ page ∈ splitPages twoPages.content, _
  decide +kernel

/-- The empty text is compiled and rendered between the steps of a compile of two pages. -/
def overlapped : List (Move (Coupling service) (Option BusyEngine.Act)) × Coupling service :=
  perform (fresh 4)
    [.asks (.compile ⟨default, "", 0⟩), .asks (.compile twoPages), .answers 1,
      .asks (.render ⟨default, "", 0⟩), .answers 0, .answers 1, .answers 0, .answers 0,
      .answers 0, .answers 0, .answers 0]

theorem overlapped_moves :
    Coupling.sources overlapped.1 = [⟨default, "", 0⟩, twoPages] ∧
    (∃ move ∈ overlapped.1, resumed? move.act = some (twoPages, some ⟨2⟩, none) ∧
      move.after.engine.findings ≠ move.before.engine.findings) ∧
    ∃ move ∈ overlapped.1, resumed? move.act =
      some (twoPages, some ⟨2⟩, some ⟨.full, 2, [0, 1], 0, 2⟩) := by
  decide +kernel

end LivePreview.Toy
