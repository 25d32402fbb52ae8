import LivePreview.Page.Decoder
import LivePreview.Proofs.Compiler.Generations
import LivePreview.Proofs.Compiler.Reading
import LivePreview.Proofs.Compiler.Service
import LivePreview.Proofs.Preview.Showing
import LivePreview.Toy.Layout

/-!
# A compile shows the pages of its own generation
-/

namespace LivePreview.Compiler

open Preview (Activity Coupling Cycle Demand Errand Ledger Plan Progress Service Ticket BusyEngine)

def Read (answered : List Answered) (files : List Path) (contents : List ByteArray) : Prop :=
  List.Forall₂ (fun file data => (⟨.read file, .ok data⟩ : Answered) ∈ answered) files contents

/-- The latest generation is published, and is one of `own`. -/
structure Serving (own : Nat → Prop) (site : Site) : Prop where
  own : own site.compiler.generation
  published : site.compiler.published =
    some (folder site.compiler.outDir site.compiler.generation)
  pages : ∃ names, (⟨.list (folder site.compiler.outDir site.compiler.generation), .ok names⟩ :
    Answered) ∈ site.answered ∧
      site.compiler.pages = pageFiles (folder site.compiler.outDir site.compiler.generation) names

/-- What the compiler and the call of a cycle have to do with its own generation. -/
def Owns (own : Nat → Prop) (site : Site) : (c : Cycle) → Standing c.call → Prop
  | .persisting _ _, _ => True
  | .compiling _ _, .waits stage =>
    (∀ draft ∈ stage.drafts, draft.generation = site.compiler.generation ∧
      own draft.generation) ∧
    ∀ dir lines diagnostics, stage = .discarding dir lines (.ok diagnostics) → Serving own site
  | .compiling _ _, .ended result => ∀ diagnostics, result = .ok diagnostics → Serving own site
  | .locating _, standing => Serving own site ∧ ∀ p, standing ≠ .ended (.ok (some p))
  | .counting _ cursor, _ => Serving own site ∧ cursor = none
  | .fetchingAll _ _, .waits (.readingAll read file rest) =>
    Serving own site ∧ ∃ files contents, site.compiler.pages = files ++ file :: rest ∧
      Read site.answered files contents ∧ read.reverse = pagesOf contents
  | .fetchingAll _ _, .ended result => Serving own site ∧ ∀ pages, result = .ok pages →
      ∃ contents, Read site.answered site.compiler.pages contents ∧ pages = pagesOf contents
  | .fetchingPage _ _ _, _ => False

/-! ## What others do -/

/-- The same is served, and what the system has answered is still on record. -/
structure Steady (site site' : Site) : Prop where
  outDir : site'.compiler.outDir = site.compiler.outDir
  generation : site'.compiler.generation = site.compiler.generation
  published : site'.compiler.published = site.compiler.published
  pages : site'.compiler.pages = site.compiler.pages
  answered : ∀ answer ∈ site.answered, answer ∈ site'.answered

theorem Steady.refl (site : Site) : Steady site site :=
  ⟨rfl, rfl, rfl, rfl, fun _ mem => mem⟩

theorem Steady.trans {first second third : Site} (before : Steady first second)
    (after : Steady second third) : Steady first third where
  outDir := after.outDir.trans before.outDir
  generation := after.generation.trans before.generation
  published := after.published.trans before.published
  pages := after.pages.trans before.pages
  answered answer mem := after.answered answer (before.answered answer mem)

/-- The engine does not select anything. -/
theorem not_selects (a : Activity) (stage : Stage a.call.operation) : ¬ stage.Selects := by
  intro selects
  cases a with
  | cycle c =>
    cases c <;> cases stage <;> cases selects
  | click c => cases stage

/-- A compile that is not the latest leaves alone what is served. -/
theorem steady_of_advances {operation : Operation} {site : Site} {stage : Stage operation}
    {reply : (stage.request site.compiler).Reply}
    (unselected : ¬ stage.Selects)
    (late : ∀ draft ∈ stage.drafts, draft.generation ≠ site.compiler.generation) :
    Steady site ⟨(site.compiler.resume stage reply).1, site.answered ++ [⟨_, reply⟩]⟩ := by
  have advances := site.compiler.resume_advances stage reply
  revert advances
  generalize site.compiler.resume stage reply = step
  intro advances
  have answered : ∀ answer ∈ site.answered,
      answer ∈ site.answered ++ [(⟨stage.request site.compiler, reply⟩ : Answered)] :=
    fun _ mem => List.mem_append_left _ mem
  cases advances with
  | published diagnostics latest => exact absurd latest.symm (late _ (List.mem_singleton_self _))
  | forgot selects => exact absurd selects unselected
  | _ => exact ⟨rfl, rfl, rfl, rfl, answered⟩

theorem call_question (c : Compiler) {call : Call} (question : call.IsQuestion) :
    (c.call call).1 = c := by
  cases call with
  | renderAllPages =>
    simp only [Compiler.call]
    cases c.pages <;> rfl
  | renderPage index =>
    simp only [Compiler.call]
    split <;> rfl
  | pageCount => rfl
  | resolveCursorPosition offset text path => rfl
  | resolveClick text page x y => rfl
  | _ => cases question

theorem steady_of_beside {others : List (Errand service)} {site site' : service.State}
    (beside : service.Beside others site site')
    (late : ∀ other ∈ others, ∀ draft ∈ drafts other,
      draft.generation ≠ site.compiler.generation) : Steady site site' := by
  induction beside with
  | still => exact .refl site
  | @asks site' call _ question inductionHypothesis =>
    refine inductionHypothesis.trans ?_
    show Steady site' { site' with compiler := (site'.compiler.call call).1 }
    rw [call_question _ question]
    exact .refl site'
  | answers mem answers =>
    obtain ⟨rfl, -⟩ := answers
    exact .refl _
  | @proceeds site' other ongoing mem proceeds =>
    obtain ⟨stage, reply, waiting, rfl, rfl⟩ := proceeds
    refine steady_of_advances (not_selects other.activity stage) fun draft held => ?_
    refine late other mem draft ?_
    rw [drafts, waiting]
    exact List.mem_flatMap.mpr ⟨stage, List.mem_singleton_self _, held⟩
  | drifts drifts =>
    obtain ⟨lines, rfl⟩ := drifts
    exact ⟨rfl, rfl, rfl, rfl, fun _ mem => mem⟩

section Later

variable {own own' : Nat → Prop} {site site' : Site}

theorem Read.later {files : List Path} {contents : List ByteArray}
    (read : Read site.answered files contents) (steady : Steady site site') :
    Read site'.answered files contents :=
  read.imp fun _ _ mem => steady.answered _ mem

theorem Serving.later (serving : Serving own site) (steady : Steady site site')
    (grows : ∀ n, own n → own' n) : Serving own' site' := by
  obtain ⟨mine, published, names, listed, pages⟩ := serving
  refine ⟨?_, ?_, names, ?_, ?_⟩
  · rw [steady.generation]
    exact grows _ mine
  · rw [steady.published, steady.outDir, steady.generation, published]
  · rw [steady.outDir, steady.generation]
    exact steady.answered _ listed
  · rw [steady.pages, steady.outDir, steady.generation, pages]

theorem Owns.later {c : Cycle} {standing : Standing c.call} (owns : Owns own site c standing)
    (steady : Steady site site') (grows : ∀ n, own n → own' n) : Owns own' site' c standing := by
  cases c with
  | persisting source ticket => trivial
  | compiling source ticket =>
    cases standing with
    | waits stage =>
      refine ⟨fun draft held => ?_, fun dir lines diagnostics same => ?_⟩
      · rw [steady.generation]
        exact ⟨(owns.1 draft held).1, grows _ (owns.1 draft held).2⟩
      · exact (owns.2 dir lines diagnostics same).later steady grows
    | ended result => exact fun diagnostics ok => (owns diagnostics ok).later steady grows
  | locating r => exact ⟨owns.1.later steady grows, owns.2⟩
  | counting r cursor => exact ⟨owns.1.later steady grows, owns.2⟩
  | fetchingAll r cursor =>
    cases standing with
    | waits stage =>
      cases stage with
      | readingAll read file rest =>
        obtain ⟨serving, files, contents, pages, done, reads⟩ := owns
        exact ⟨serving.later steady grows, files, contents, steady.pages ▸ pages,
          done.later steady, reads⟩
    | ended result =>
      refine ⟨owns.1.later steady grows, fun pages ok => ?_⟩
      obtain ⟨contents, read, same⟩ := owns.2 pages ok
      exact ⟨contents, steady.pages ▸ read.later steady, same⟩
  | fetchingPage r cursor index => exact owns

/-- Whatever a cycle relies on, nobody else holds the latest generation. -/
theorem Owns.apart {shown : List Nat} {before after : List (Errand service)} {c : Cycle}
    {standing : Standing c.call} (owns : Owns own site c standing)
    (ranked : Ranked drafts shown (before ++ ⟨.cycle c, standing⟩ :: after) site.compiler) :
    (∀ site', Owns own site' c standing) ∨ ∀ other ∈ before ++ after, ∀ draft ∈ drafts other,
      draft.generation ≠ site.compiler.generation := by
  -- what is served was shown, and the generation of a draft was not
  have serving : Serving own site → ∀ other ∈ before ++ after, ∀ draft ∈ drafts other,
      draft.generation ≠ site.compiler.generation := by
    intro serving other mem draft held latest
    obtain ⟨n, known, here⟩ := ranked.published _ serving.published
    exact ranked.not_shown (mem_of_beside rfl mem) held (latest ▸ folder_injective here ▸ known)
  cases c with
  | persisting source ticket => exact .inl fun _ => trivial
  | compiling source ticket =>
    cases standing with
    | waits stage =>
      cases drafted : stage.drafts with
      | cons draft others =>
        have held : draft ∈ stage.drafts := drafted ▸ List.mem_cons_self ..
        refine .inr fun other mem draft' held' => ?_
        rw [← (owns.1 draft held).1]
        exact ranked.apart mem (List.mem_flatMap.mpr ⟨stage, List.mem_singleton_self _, held⟩) held'
      | nil =>
        by_cases settled : ∃ dir lines diagnostics, stage = .discarding dir lines (.ok diagnostics)
        · obtain ⟨dir, lines, diagnostics, same⟩ := settled
          exact .inr (serving (owns.2 dir lines diagnostics same))
        · refine .inl fun site' => ⟨fun draft held => ?_, fun dir lines diagnostics same => ?_⟩
          · rw [drafted] at held
            cases held
          · exact absurd ⟨dir, lines, diagnostics, same⟩ settled
    | ended result =>
      cases result with
      | ok diagnostics => exact .inr (serving (owns diagnostics rfl))
      | error f => exact .inl fun _ _ ok => nomatch ok
  | locating r => exact .inr (serving owns.1)
  | counting r cursor => exact .inr (serving owns.1)
  | fetchingAll r cursor =>
    cases standing with
    | waits stage =>
      cases stage with
      | readingAll read file rest => exact .inr (serving owns.1)
    | ended result => exact .inr (serving owns.1)
  | fetchingPage r cursor index => exact owns.elim

end Later

/-! ## What a cycle does itself -/

section Own

variable {own : Nat → Prop} {site : Site}

theorem Owns.compile {source : Snapshot} {ticket : Ticket} {stage : Stage .compile}
    (owns : Owns own site (.compiling source ticket) (.waits stage))
    (named : ∀ draft ∈ stage.drafts, draft.dir = folder site.compiler.outDir draft.generation)
    (reply : (stage.request site.compiler).Reply) :
    Owns own ⟨(site.compiler.resume stage reply).1, site.answered ++ [⟨_, reply⟩]⟩
      (.compiling source ticket) (site.compiler.resume stage reply).2 := by
  cases stage with
  | preparing draft =>
    cases reply with
    | error e => exact fun _ ok => nomatch ok
    | ok _ => exact ⟨owns.1, fun _ _ _ same => nomatch same⟩
  | compiling draft =>
    show Owns own ⟨(site.compiler.afterCompile draft reply).1, _⟩ (.compiling source ticket)
      (site.compiler.afterCompile draft reply).2
    unfold afterCompile
    cases checkRun .compile draft.target reply with
    | error f => exact ⟨(fun _ held => nomatch held), fun _ _ _ same => nomatch same⟩
    | ok run => exact ⟨owns.1, fun _ _ _ same => nomatch same⟩
  | collecting draft diagnostics =>
    cases reply with
    | error e => exact ⟨(fun _ held => nomatch held), fun _ _ _ same => nomatch same⟩
    | ok names =>
      have mine : draft ∈ [draft] := List.mem_singleton_self _
      obtain ⟨latest, known⟩ := owns.1 draft mine
      have here := named draft mine
      rw [latest] at known here
      obtain ⟨lines, progress, published, ends⟩ :=
        afterCollect_latest diagnostics names latest.symm
      rw [show site.compiler.resume (.collecting draft diagnostics) (.ok names) = _ from published]
      have serving : Serving own ⟨{ site.compiler with
          pages := pageFiles draft.dir names, published := some draft.dir,
          retired := site.compiler.published, lines },
          site.answered ++ [⟨.list draft.dir, .ok names⟩]⟩ := by
        refine ⟨known, congrArg some here, names, ?_, congrArg (pageFiles · names) here⟩
        rw [← here]
        exact List.mem_concat_self
      rcases ends with ⟨-, rfl⟩ | ⟨dir, -, rfl⟩
      · exact fun _ _ => serving
      · exact ⟨(fun _ held => nomatch held), fun _ _ _ _ => serving⟩
  | discarding dir lines result =>
    intro diagnostics ok
    have serving := owns.2 dir lines diagnostics (ok ▸ rfl)
    exact serving.later (steady_of_advances id fun _ held => nomatch held) fun _ mine => mine

theorem Owns.read {r : Preview.Render} {cursor : Option Position} {stage : Stage .renderAllPages}
    (owns : Owns own site (.fetchingAll r cursor) (.waits stage))
    (reply : (stage.request site.compiler).Reply) :
    Owns own ⟨(site.compiler.resume stage reply).1, site.answered ++ [⟨_, reply⟩]⟩
      (.fetchingAll r cursor) (site.compiler.resume stage reply).2 := by
  cases stage with
  | readingAll read file rest =>
    obtain ⟨serving, files, contents, pages, done, reads⟩ := owns
    have steady : Steady site ⟨(site.compiler.resume (.readingAll read file rest) reply).1,
        site.answered ++ [⟨_, reply⟩]⟩ := steady_of_advances id fun _ held => nomatch held
    have serving := serving.later steady fun _ mine => mine
    cases reply with
    | error e => exact ⟨serving, fun _ ok => nomatch ok⟩
    | ok data =>
      have count : read.length = contents.length := by
        rw [← List.length_reverse, reads, pagesOf_length]
      have reads : (readPage read.length data :: read).reverse = pagesOf (contents ++ [data]) := by
        rw [List.reverse_cons, reads, pagesOf_snoc, count]
      have done : Read (site.answered ++ [⟨.read file, .ok data⟩]) (files ++ [file])
          (contents ++ [data]) := by
        refine List.rel_append (done.later steady) (.cons ?_ .nil)
        exact List.mem_concat_self
      cases rest with
      | nil =>
        refine ⟨serving, fun read ok => ⟨contents ++ [data], pages ▸ done, ?_⟩⟩
        exact (Except.ok.inj ok).symm.trans reads
      | cons next rest =>
        refine ⟨serving, files ++ [file], contents ++ [data], ?_, done, reads⟩
        exact pages.trans (List.append_cons ..)

theorem Owns.proceeds {c : Cycle} {stage : Stage c.call.operation}
    (owns : Owns own site c (.waits stage))
    (named : ∀ draft ∈ stage.drafts, draft.dir = folder site.compiler.outDir draft.generation)
    (reply : (stage.request site.compiler).Reply) :
    Owns own ⟨(site.compiler.resume stage reply).1, site.answered ++ [⟨_, reply⟩]⟩ c
      (site.compiler.resume stage reply).2 := by
  cases c with
  | persisting source ticket => trivial
  | compiling source ticket => exact owns.compile named reply
  | locating r => cases stage
  | counting r cursor => cases stage
  | fetchingAll r cursor => exact owns.read reply
  | fetchingPage r cursor index => exact owns.elim

/-- An answer that succeeds was not given up, so the call has ended with it. -/
theorem ended_of_ok {call : Call} {standing : Standing call} {found : call.operation.Answer}
    (answer : standing = .ended (.ok found) ∨
      ∃ after, (.ok found : call.Reply) = .error (.timeout call.operation after)) :
    standing = .ended (.ok found) :=
  answer.resolve_right fun ⟨_, refused⟩ => nomatch refused

/-- A cycle goes on to its next call.  A compile that is called is given a generation of
    its own, if any. -/
theorem Owns.next {e : Preview.Engine} {c next : Cycle} {standing : Standing c.call}
    {reply : c.call.Reply} {k : Preview.Counters} (owns : Owns own site c standing)
    (answer : standing = .ended reply ∨ ∃ after, reply = .error (.timeout c.call.operation after))
    (succeeds : c.Succeeds e reply next k)
    (allocates : (∃ source ticket, next = .compiling source ticket) →
      (site.compiler.call .compile).1.generation ≠ site.compiler.generation →
        own (site.compiler.call .compile).1.generation) :
    Owns own (service.accept site next.call).2 next (service.accept site next.call).1 := by
  cases succeeds with
  | compiling source ticket =>
    have known := allocates ⟨source, ticket, rfl⟩
    change site.compiler.startCompile.1.generation ≠ _ →
      own site.compiler.startCompile.1.generation at known
    show Owns own { site with compiler := site.compiler.startCompile.1 }
      (.compiling source ticket) site.compiler.startCompile.2
    unfold startCompile at known ⊢
    cases target : site.compiler.target with
    | error f => exact fun _ ok => nomatch ok
    | ok target =>
      rw [target] at known
      refine ⟨fun draft held => ?_, fun _ _ _ same => nomatch same⟩
      rw [List.mem_singleton.mp held]
      exact ⟨rfl, known (Nat.succ_ne_self _)⟩
  | locating source ticket diagnostics =>
    obtain rfl := ended_of_ok answer
    exact ⟨owns diagnostics rfl, fun _ same => nomatch same⟩
  | countingFrom r p =>
    obtain rfl := ended_of_ok answer
    exact absurd rfl (owns.2 p)
  | counting r reply => exact ⟨owns.1, rfl⟩
  | fetchingAll r cursor count full =>
    show Owns own { site with compiler := (site.compiler.readNext [] site.compiler.pages).1 }
      (.fetchingAll r cursor) (site.compiler.readNext [] site.compiler.pages).2
    cases pages : site.compiler.pages with
    | nil =>
      refine ⟨owns.1, fun read ok => ⟨[], ?_, (Except.ok.inj ok).symm⟩⟩
      show Read site.answered site.compiler.pages []
      rw [pages]
      exact .nil
    | cons file rest => exact ⟨owns.1, [], [], pages, .nil, rfl⟩
  | fetchingPage r cursor count index single =>
    obtain ⟨p, placed, -⟩ := Plan.position_of_single single
    rw [owns.2] at placed
    cases placed

end Own

/-! ## Whoever holds the latest ticket -/

/-- A generation that was allocated to the compile with a ticket. -/
def OwnOf (moves : List (Move (Coupling service) (Option BusyEngine.Act))) (ticket : Ticket)
    (generation : Nat) : Prop :=
  (ticket.number, generation) ∈ allocations moves

/-- Whoever holds the latest ticket of a compile finds what is its own. -/
def Owned (moves : List (Move (Coupling service) (Option BusyEngine.Act))) (s : Coupling service) :
    Prop :=
  ∀ errand ∈ s.errands, ∀ ticket ∈ errand.activity.compileTicket?,
    s.engine.compiles.isCurrent ticket → ∀ c standing, errand = ⟨.cycle c, standing⟩ →
      Owns (OwnOf moves ticket) s.service c standing

theorem OwnOf.snoc {moves : List (Move (Coupling service) (Option BusyEngine.Act))}
    {ticket : Ticket} (move : Move (Coupling service) (Option BusyEngine.Act)) (n : Nat)
    (known : OwnOf moves ticket n) :
    OwnOf (moves ++ [move]) ticket n := by
  rw [OwnOf, allocations, List.filterMap_append]
  exact List.mem_append_left _ known

theorem OwnOf.of_prefix {moves first rest : List (Move (Coupling service) (Option BusyEngine.Act))}
    (cut : moves = first ++ rest) {ticket : Ticket} {n : Nat} (known : OwnOf first ticket n) :
    OwnOf moves ticket n := by
  rw [OwnOf, cut, allocations, List.filterMap_append]
  exact List.mem_append_left _ known

theorem Owned.step [ImageDecoder] {shown record : List Nat} {s t : Coupling service}
    {act : Option BusyEngine.Act} {moves : List (Move (Coupling service) (Option BusyEngine.Act))}
    (owned : Owned moves s) (ranked : Ranked drafts shown s.errands s.service.compiler)
    (sound : Ledger.compiledFetches.Sound record s.busyEngine) (step : Coupling.Step s act t) :
    Owned (moves ++ [⟨s, act, t⟩]) t := by
  intro errand mem ticket held latest
  have grows : ∀ n, OwnOf moves ticket n → OwnOf (moves ++ [⟨s, act, t⟩]) ticket n := OwnOf.snoc _
  cases step.bears sound mem held latest with
  | begun source issued =>
    rintro c standing ⟨⟩
    trivial
  | @resumed before after c next ongoing reply b waited holds current answers succeeds did issued =>
    rintro c' standing' ⟨⟩
    have waiting : (⟨.cycle c, ongoing⟩ : Errand service) ∈ s.errands :=
      waited ▸ List.mem_append_cons_self
    have owns := owned _ waiting ticket holds (current.1 ticket holds) c ongoing rfl
    obtain ⟨rfl, answer⟩ := answers
    rw [issued]
    refine (owns.later (.refl _) grows).next answer succeeds ?_
    rintro ⟨source, ticket', rfl⟩ grown
    generalize t.engine.counters = k at succeeds
    cases succeeds
    cases holds
    refine List.mem_filterMap.mpr ⟨_, List.mem_concat_self, ?_⟩
    have called : t.service.compiler = (s.service.compiler.call .compile).1 :=
      congrArg Site.compiler issued
    simp only [allocated?, did, called]
    exact if_neg grown
  | @proceeded before after errand ongoing waited current proceeds =>
    have waiting : errand ∈ s.errands := waited ▸ List.mem_append_cons_self
    obtain ⟨activity, standing⟩ := errand
    rintro c ongoing' ⟨⟩
    obtain ⟨stage, reply, same, rfl, became⟩ := proceeds
    have owns := owned _ waiting ticket held current c _ rfl
    dsimp only at same
    rw [same] at owns
    rw [became]
    refine (owns.later (.refl _) grows).proceeds (fun draft drafted => ?_) reply
    refine ranked.named _ waiting draft ?_
    rw [drafts, same]
    exact List.mem_flatMap.mpr ⟨stage, List.mem_singleton_self _, drafted⟩
  | @beside before after errand waited current beside =>
    rintro c standing rfl
    have waiting : (⟨.cycle c, standing⟩ : Errand service) ∈ s.errands :=
      waited ▸ List.mem_append_cons_self
    have owns := owned _ waiting ticket held current c standing rfl
    -- what others do changes the latest generation only if one of them holds it
    rcases owns.apart (waited ▸ ranked) with free | late
    · exact (free t.service).later (.refl _) grows
    · exact owns.later (steady_of_beside beside late) grows

/-! ## What is shown -/

theorem keys_of_pagesOf (contents : List ByteArray) :
    ((pagesOf contents).zipIdx.map fun (page, i) => PageKey.of page.data i) =
      contents.zipIdx.map fun (data, i) => .of data i := by
  apply List.ext_getElem?
  intro i
  simp only [pagesOf, List.getElem?_map, List.getElem?_zipIdx, Option.map_map]
  rfl

section Shown

variable [ImageDecoder]

/-- An image that was decoded from data with the fingerprint of its key. -/
def Decoded (key : PageKey) (image : PageImage) : Prop :=
  ∃ data, decodeImage data = .ok image ∧ Fingerprint.of data = key.fingerprint

theorem decodes (page : Page) : Preview.Decodes Decoded page :=
  fun _ decoded => ⟨page.data, decoded, rfl⟩

/-- A compile whose answer is taken has published its generation. -/
theorem Owns.taken {own : Nat → Prop} {site : Site} {e : Preview.Engine} {c : Cycle}
    {standing : Standing c.call} {reply : c.call.Reply} {ticket : Ticket} {next : Activity}
    (owns : c.isStale e = false → Owns own site c standing)
    (answer : standing = .ended reply ∨ ∃ after, reply = .error (.timeout c.call.operation after))
    (answers : c.answers? = some ticket)
    (goesOn : (Activity.resume e (.cycle c) reply).2 = .waits next) :
    Serving own (service.issue site next).2 := by
  have advances := Activity.resume_advances (.cycle c) e reply
  revert goesOn advances
  generalize Activity.resume e (.cycle c) reply = resumed
  rintro goesOn (_ | @⟨_, _, _, after, current, succeeds⟩)
  · cases goesOn
  · cases goesOn
    have owns := owns ((c.isStale_iff e).mpr current)
    generalize after.counters = k at succeeds
    cases succeeds with
    | locating source ticket diagnostics =>
      obtain rfl := ended_of_ok answer
      exact owns diagnostics rfl
    | _ => cases answers

/-- The pages that a cycle has rendered are those in the files that are served. -/
theorem Owns.rendered {own : Nat → Prop} {site : Site} {e : Preview.Engine} {c : Cycle}
    {standing : Standing c.call} {reply : c.call.Reply} (owns : Owns own site c standing)
    (answer : standing = .ended reply ∨ ∃ after, reply = .error (.timeout c.call.operation after))
    (cached : e.state.cache.All Decoded) {report : Preview.RenderReport}
    (rendered : (c.resume e reply).2 = .ended (.rendered report)) :
    Serving own site ∧ report.plan = .full ∧ ∃ contents,
      Read site.answered site.compiler.pages contents ∧
      (c.resume e reply).1.state.pages.map Preview.Slot.key =
        (contents.zipIdx.map fun (data, i) => .of data i) ∧
      ∀ slot ∈ (c.resume e reply).1.state.pages, Decoded slot.key slot.image := by
  obtain ⟨plan, splice, spliced, splices, planned, ok, display⟩ :=
    (c.resume_displays e reply).of_rendered rendered
  obtain ⟨shown, -⟩ := Prod.mk.inj display
  rw [shown]
  cases splices with
  | all r cursor fetched =>
    obtain rfl := ended_of_ok answer
    obtain ⟨serving, delivered⟩ := owns
    obtain ⟨contents, read, rfl⟩ := delivered fetched rfl
    obtain ⟨keys, images⟩ :=
      (Preview.spliceAll_shows cached fun page _ => decodes page).2 spliced ok
    exact ⟨serving, planned, contents, read, keys.trans (keys_of_pagesOf contents), images⟩
  | one r cursor page => exact owns.elim

end Shown

/-! ## Every run -/

section Runs

variable [ImageDecoder] {program outDir : Path} {ppi capacity : Nat} {entries : Entries}
  {earlier : List (Move BusyCompiler BusyCompiler.Act)} {w : BusyCompiler}
  {moves : List (Move (Coupling service) (Option BusyEngine.Act))} {s : Coupling service}

/-- The engine starts with a compiler that is at rest. -/
def begun (capacity : Nat) (c : Compiler) : Coupling service :=
  .idle (.start capacity) ⟨c, []⟩

theorem ranked_of_run
    (rested : Run BusyCompiler.Step (.opened program ppi outDir entries) earlier w)
    (idle : w.tasks = []) (run : Run Coupling.Step (begun capacity w.compiler) moves s) :
    ∃ shown, Ranked drafts shown s.errands s.service.compiler := by
  induction run with
  | nil =>
    obtain ⟨shown, -, -, kept⟩ := BusyCompiler.kept_of_run rested
    have ranked := kept.ranked
    rw [idle] at ranked
    exact ⟨shown, ranked.rest drafts⟩
  | snoc earlier step inductionHypothesis =>
    obtain ⟨shown, ranked⟩ := inductionHypothesis
    exact ranked_step ranked step

theorem owned_of_run (rested : Run BusyCompiler.Step (.opened program ppi outDir entries) earlier w)
    (idle : w.tasks = []) (run : Run Coupling.Step (begun capacity w.compiler) moves s) :
    Owned moves s := by
  induction run with
  | nil => exact fun errand mem => nomatch mem
  | snoc earlier step inductionHypothesis =>
    obtain ⟨shown, ranked⟩ := ranked_of_run rested idle earlier
    exact inductionHypothesis.step ranked (Coupling.sound_of_run .compiledFetches earlier) step

theorem cached_of_run {c : Compiler} (run : Run Coupling.Step (begun capacity c) moves s) :
    s.engine.state.cache.All Decoded := by
  induction run with
  | nil => exact RenderCache.All.empty capacity
  | snoc earlier step inductionHypothesis =>
    cases step with
    | starts demand => exact Demand.start_cache inductionHypothesis demand
    | resets => exact Preview.Engine.reset_cache _
    | resumes before waits answers =>
      exact Activity.resume_cache inductionHypothesis fun page _ => decodes page
    | proceeds => exact inductionHypothesis
    | drifts => exact inductionHypothesis

/-- Whatever the system answers, and whatever else is started, answered or given up
    meanwhile: generations are allocated in the order of the tickets of the compiles.  A
    compile whose answer is taken has published its own generation, and one that ends with
    its pages rendered shows the files of that generation, slot by slot, as they were
    read. -/
theorem compile_shows_own_generation
    (rested : Run BusyCompiler.Step (.opened program ppi outDir entries) earlier w)
    (idle : w.tasks = []) (run : Run Coupling.Step (begun capacity w.compiler) moves s) :
    ((allocations moves).map Prod.fst).Pairwise (· < ·) ∧
    ((allocations moves).map Prod.snd).Pairwise (· < ·) ∧
    ∀ {u v : Coupling service} {c : Cycle} {reply : c.call.Reply}
      {progress : Progress Activity Preview.Ending} {ticket : Ticket},
      ⟨u, some (.resumes (.cycle c) reply progress), v⟩ ∈ moves →
      (Activity.cycle c).compileTicket? = some ticket →
      (∀ next, c.answers? = some ticket → progress = .waits next →
        Serving (OwnOf moves ticket) v.service) ∧
      ∀ report, progress = .ended (.cycle (.rendered report)) →
        Serving (OwnOf moves ticket) v.service ∧ report.plan = .full ∧ ∃ contents,
          Read v.service.answered v.service.compiler.pages contents ∧
          v.engine.state.pages.map Preview.Slot.key =
            (contents.zipIdx.map fun (data, i) => .of data i) ∧
          ∀ slot ∈ v.engine.state.pages, Decoded slot.key slot.image := by
  refine ⟨(allocations_increasing run).1, (allocations_increasing run).2, ?_⟩
  intro u v c reply progress ticket resumed compiles
  obtain ⟨first, rest, cut⟩ := List.append_of_mem resumed
  obtain ⟨earlier, step, -⟩ := run.around cut
  obtain ⟨before, after, standing, b, waits, ⟨same, answer⟩, done, became⟩ := step.of_resumes
  dsimp only at earlier waits same answer done became
  subst same
  have waiting : (⟨.cycle c, standing⟩ : Errand service) ∈ u.errands :=
    waits ▸ List.mem_append_cons_self
  have owns : c.isStale u.engine = false → Owns (OwnOf moves ticket) u.service c standing := by
    intro current
    have latest := ((c.isStale_iff u.engine).mp current).1 ticket compiles
    have owned := owned_of_run rested idle earlier _ waiting ticket compiles latest c standing rfl
    exact owned.later (.refl _) fun n => OwnOf.of_prefix cut
  refine ⟨?_, ?_⟩
  · rintro next answers rfl
    rw [← done] at became
    rw [became]
    exact Owns.taken owns answer answers done.symm
  · rintro report rfl
    obtain ⟨current, rendered⟩ := Activity.resume_ended done.symm (fun same => nomatch same)
    have shows := (owns current).rendered answer (cached_of_run earlier) rendered
    rw [← done] at became
    rw [became]
    exact shows

end Runs

attribute [local instance] pngDecoder

/-- A main document is selected and compiled, and its only page is shown. -/
theorem only_page_shown : ∃ earlier w moves s,
    Run BusyCompiler.Step (.opened ⟨"typst"⟩ 144 ⟨"/out"⟩ fun _ => False) earlier w ∧
    w.tasks = [] ∧ Run Coupling.Step (begun 4 w.compiler) moves s ∧
    ∃ u c reply progress v, ⟨u, some (.resumes (.cycle c) reply progress), v⟩ ∈ moves ∧
      (Activity.cycle c).compileTicket? = some ⟨1⟩ ∧
      progress.report? = some ⟨.full, 1, [0], 0, 1⟩ ∧ Serving (OwnOf moves ⟨1⟩) v.service ∧
      ∃ contents, Read v.service.answered v.service.compiler.pages contents ∧
        v.engine.state.pages.map Preview.Slot.key =
          contents.zipIdx.map fun (data, i) => .of data i := by
  let main : Path := ⟨"/doc/main.typ"⟩
  let source : Snapshot := ⟨main, "", 0⟩
  let draft : Draft := ⟨⟨main.parent?.getD ⟨""⟩, main⟩, 2, folder ⟨"/out"⟩ 2⟩
  let diagnostics := (report draft.target ⟨.exited 0, .empty⟩).diagnostics
  let r : Preview.Render := ⟨source, some ⟨1⟩, ⟨1⟩⟩
  let file : Path := ⟨"/out/gen-2/page-1.png"⟩
  have silent : diagnostics = [] := by decide +kernel
  have files : pageFiles draft.dir ["page-1.png"] = [file] := by decide +kernel
  have rested := (Run.nil.snoc
    (BusyCompiler.Step.begins (.opened ⟨"typst"⟩ 144 ⟨"/out"⟩ fun _ => False)
      (.setMainDocument main))).snoc
    (BusyCompiler.Step.alone (.openingMain main) (Except.ok .file) rfl trivial)
  have nothing : Run Coupling.Step (begun 4
    ((Compiler.start ⟨"typst"⟩ 144 ⟨"/out"⟩).resume (.openingMain main) (Except.ok .file)).1)
    [] _ := .nil
  have persisted := ((nothing.snoc (.starts _ (.compile source))).snoc
    (proceeds_alone (a := .cycle (.persisting source ⟨1⟩)) rfl (.persisting main "") rfl
      (Except.ok ()))).snoc
    (resumes_alone (a := .cycle (.persisting source ⟨1⟩)) rfl (.ok ()) rfl)
  have compiled := (((persisted.snoc
    (proceeds_alone (a := .cycle (.compiling source ⟨1⟩)) rfl (.preparing draft) rfl
      (Except.ok ()))).snoc
    (proceeds_alone (a := .cycle (.compiling source ⟨1⟩)) rfl (.compiling draft) rfl
      (Except.ok ⟨.exited 0, .empty⟩))).snoc
    (proceeds_alone (a := .cycle (.compiling source ⟨1⟩)) rfl (.collecting draft diagnostics) rfl
      (Except.ok ["page-1.png"]))).snoc
    (resumes_alone (a := .cycle (.compiling source ⟨1⟩)) rfl (.ok [])
      (congrArg (fun found => Progress.ended (Except.ok found)) silent))
  have counted := (compiled.snoc
    (resumes_alone (a := .cycle (.locating r)) rfl (.ok none) rfl)).snoc
    (resumes_alone (a := .cycle (.counting r none)) rfl (.ok 1)
      (congrArg (fun files => Progress.ended (Except.ok (List.length files))) files))
  have rendered := (counted.snoc
    (proceeds_alone (a := .cycle (.fetchingAll r none)) rfl (.readingAll [] file [])
      (congrArg (fun files => (readNext _ [] files).2) files) (Except.ok (Toy.pagePng "")))).snoc
    (resumes_alone (a := .cycle (.fetchingAll r none)) rfl
      (.ok [readPage 0 (Toy.pagePng "")]) rfl)
  refine ⟨_, _, _, _, rested, rfl, rendered, _, .fetchingAll r none, _, _, _,
    List.mem_of_getElem? (i := 10) rfl, rfl, ?_⟩
  refine (fun both : _ ∧ (_ → _) => ⟨both.1, both.2 both.1⟩) ⟨by decide +kernel, fun reports => ?_⟩
  have shown := (compile_shows_own_generation rested rfl rendered).2.2
    (List.mem_of_getElem? (i := 10) rfl) rfl
  have ended := Progress.ended_of_report? reports
  have own := shown.2 _ ended
  obtain ⟨serving, -, contents, read, keys, -⟩ := own
  exact ⟨serving, contents, read, keys⟩

end LivePreview.Compiler
