import LivePreview.Proofs.Compiler.Publication

/-!
# For what the pages were drawn

The pages that are served were drawn by a run of the program for some target, which was
selected when the compile began.  No selection has forgotten the pages since then
(`pages_of_unforgotten_compile`).

That target need not be selected any more.  A selection forgets the pages, then has
their directories removed, and only then takes over: a compile that begins in between is
the latest, and still for the target before (`previous_target_served`).  This is the
only way.  If no selection is between the two when a compile begins, its pages are
served for what is selected.
-/

namespace LivePreview.Compiler

open Preview (Progress)

/-! ## Steps that leave the target alone -/

/-- Whether a selection has forgotten the pages and has not taken over yet. -/
def Stage.Leaving : {operation : Operation} → Stage operation → Prop
  | _, .leavingRoot .. => True
  | _, .leavingMain .. => True
  | _, _ => False

theorem Stage.not_leaving_of_compile (stage : Stage .compile) : ¬ stage.Leaving := by
  cases stage <;> exact id

theorem Stage.not_leaving_of_removing {operation : Operation} {stage : Stage operation}
    (nothing : stage.removing = []) : ¬ stage.Leaving := by
  intro leaving
  cases stage with
  | leavingRoot path dir rest => cases nothing
  | leavingMain path dir rest => cases nothing
  | _ => cases leaving

/-- A step after which the target is the same, and no selection is about to take over. -/
structure Settled (c : Compiler) {operation : Operation} (step : Step operation) : Prop where
  target : step.1.target = c.target
  next : ∀ stage ∈ step.2.next, ¬ stage.Leaving

theorem Settled.ended {c c' : Compiler} {operation : Operation}
    {result : Except Failure operation.Answer} (same : c'.target = c.target) :
    Settled c ((c', .ended result) : Step operation) :=
  ⟨same, fun _ mem => nomatch mem⟩

theorem Settled.waits {c c' : Compiler} {operation : Operation} {stage : Stage operation}
    (same : c'.target = c.target) (still : ¬ stage.Leaving) :
    Settled c ((c', .waits stage) : Step operation) :=
  ⟨same, fun _ mem => (List.mem_singleton.mp mem).symm ▸ still⟩

theorem Begins.settled {c : Compiler} {operation : Operation} {step : Step operation}
    (begins : Begins c step) : Settled c step := by
  cases begins with
  | idles drafts dirs removing =>
    refine ⟨rfl, fun stage mem => Stage.not_leaving_of_removing ?_⟩
    exact List.flatMap_eq_nil_iff.mp removing stage mem
  | drafted target => exact .waits rfl id

theorem afterCollect_settled (c : Compiler) (draft : Draft) (diagnostics : List Diagnostic)
    (reply : Except SystemError (List String)) :
    Settled c (c.afterCollect draft diagnostics reply) := by
  refine ⟨?_, fun stage _ => stage.not_leaving_of_compile⟩
  cases reply with
  | error e => rfl
  | ok names =>
    by_cases latest : c.generation = draft.generation
    · obtain ⟨lines, progress, published, -⟩ := afterCollect_latest diagnostics names latest
      rw [published]
      rfl
    · obtain ⟨lines, discarded⟩ := afterCollect_late diagnostics names latest
      rw [discarded]
      rfl

/-- A selection that succeeds forgets the pages before it is about to take over, and
    nothing else changes the target. -/
theorem resume_settled {operation : Operation} {c : Compiler} {stage : Stage operation}
    (still : ¬ stage.Leaving) (reply : (stage.request c).Reply)
    (fails : stage.Selects → ∃ f, (c.resume stage reply).2 = .ended (.error f)) :
    Settled c (c.resume stage reply) := by
  by_cases selects : stage.Selects
  · rcases resume_selects selects reply with ⟨same, f, failed⟩ | ⟨-, succeeds⟩
    · refine ⟨congrArg Compiler.target same, fun next mem => ?_⟩
      rw [failed] at mem
      cases mem
    · obtain ⟨f, failed⟩ := fails selects
      exact absurd failed (succeeds f)
  cases stage with
  | persisting path text => exact .ended rfl
  | preparing draft => cases reply <;> exact ⟨rfl, fun stage _ => stage.not_leaving_of_compile⟩
  | compiling draft =>
    refine ⟨?_, fun stage _ => stage.not_leaving_of_compile⟩
    simp only [resume, afterCompile]
    split <;> rfl
  | collecting draft diagnostics => exact afterCollect_settled ..
  | discarding dir lines result =>
    obtain ⟨noted, removal⟩ := c.noteRemoval_lines dir reply
    simp only [resume, removal]
    exact .ended rfl
  | readingAll read file rest =>
    cases reply with
    | error e => exact .ended rfl
    | ok data => cases rest <;> [exact .ended rfl; exact .waits rfl id]
  | reading index file => cases reply <;> exact .ended rfl
  | openingRoot path => exact absurd trivial selects
  | leavingRoot path dir rest => exact absurd trivial still
  | openingMain path => exact absurd trivial selects
  | leavingMain path dir rest => exact absurd trivial still
  | makingRoom path text dir => cases reply <;> [exact .ended rfl; exact .waits rfl id]
  | creating path text => exact .ended rfl
  | clearingWay target format output dir =>
    cases reply <;> [exact .ended rfl; exact .waits rfl id]
  | exporting target format output =>
    simp only [resume, afterExport]
    split <;> exact .ended rfl

namespace BusyCompiler

/-- Whether a selection has forgotten the pages and has not taken over yet. -/
def Leaving (w : BusyCompiler) : Prop :=
  ∃ task ∈ w.tasks, task.stage.Leaving

/-- As long as no selection forgets the pages or is about to take over, none does. -/
theorem Step.settled {w w' : BusyCompiler} {act : Act} (step : Step w act w') (still : ¬ w.Leaving)
    (kept : ¬ Forgets ⟨w, act, w'⟩) :
    w'.compiler.target = w.compiler.target ∧ ¬ w'.Leaving := by
  cases step with
  | begins call =>
    have settled := (w.compiler.call_begins call).settled
    refine ⟨settled.target, ?_⟩
    rintro ⟨task, mem, leaving⟩
    rcases List.mem_append.mp mem with old | new
    · exact still ⟨task, old, leaving⟩
    · obtain ⟨stage, continues, rfl⟩ := List.mem_map.mp new
      exact settled.next stage continues leaving
  | @advances before after number operation stage waits reply finds =>
    have waiting : (⟨number, operation, stage⟩ : Task) ∈ w.tasks :=
      waits ▸ List.mem_append_cons_self
    have fails : stage.Selects → ∃ f, (w.compiler.resume stage reply).2 = .ended (.error f) := by
      intro selects
      by_contra forgets
      exact kept ⟨selects, fun f failed => forgets ⟨f, failed⟩⟩
    have settled := resume_settled (fun leaving => still ⟨_, waiting, leaving⟩) reply fails
    refine ⟨settled.target, ?_⟩
    rintro ⟨task, mem, leaving⟩
    rcases Task.old_or_next waits mem with old | ⟨next, continues, rfl⟩
    · exact still ⟨task, old, leaving⟩
    · exact settled.next next continues leaving
  | drifts settles => exact ⟨rfl, still⟩

end BusyCompiler

/-! ## Where drafts come from -/

namespace Stage

variable {operation : Operation}

/-- The compile whose page files are being listed. -/
def collected : Stage operation → List Draft
  | .collecting draft _ => [draft]
  | _ => []

theorem collected_subset_drafts (stage : Stage operation) : stage.collected ⊆ stage.drafts := by
  cases stage <;> simp [collected, drafts]

theorem drafts_eq_nil {stage : Stage operation} (other : operation ≠ .compile) :
    stage.drafts = [] := by
  cases stage <;> first | rfl | exact absurd rfl other

end Stage

namespace BusyCompiler

/-- The compile that begins in a step. -/
def Act.begun : Act → List Draft
  | .begins _ .compile (.waits (.preparing draft)) => [draft]
  | _ => []

theorem drawn_append (first rest : List (Move BusyCompiler Act)) :
    drawn (first ++ rest) = drawn first ++ drawn rest :=
  List.flatMap_append

theorem drawn_snoc (moves : List (Move BusyCompiler Act)) (move : Move BusyCompiler Act) :
    drawn (moves ++ [move]) = drawn moves ++ move.act.drawn := by
  simp [drawn]

/-- A compile begins for what is selected. -/
theorem begun_of_call {c : Compiler} {call : Call} {draft : Draft} (number : Nat)
    (mem : draft ∈ (c.call call).2.next.flatMap Stage.drafts) :
    draft ∈ Act.begun (.begins number call (c.call call).2) ∧ c.target = .ok draft.target := by
  cases call with
  | compile =>
    simp only [Compiler.call, startCompile] at mem ⊢
    cases target : c.target with
    | error f => simp [target] at mem
    | ok t =>
      simp only [target] at mem ⊢
      obtain rfl := List.mem_singleton.mp mem
      exact ⟨List.mem_singleton_self _, rfl⟩
  | _ =>
    obtain ⟨stage, -, held⟩ := List.mem_flatMap.mp mem
    have undrafted : stage.drafts = [] := Stage.drafts_eq_nil (by simp [Call.operation])
    rw [undrafted] at held
    cases held

/-- The page files are listed after a run that has succeeded. -/
theorem drawn_of_advances {operation : Operation} {c : Compiler} {stage : Stage operation}
    {reply : (stage.request c).Reply} {step : Compiler.Step operation} (number : Nat)
    (advances : stage.Advances c reply step) {draft : Draft}
    (mem : draft ∈ step.2.next.flatMap Stage.collected) :
    draft ∈ Act.drawn (.advances number operation stage _ reply step.2) := by
  have undrafted : step.2.next.flatMap Stage.drafts ≠ [] := by
    obtain ⟨next, continues, held⟩ := List.mem_flatMap.mp mem
    have drafts := next.collected_subset_drafts held
    exact List.ne_nil_of_mem (List.mem_flatMap.mpr ⟨next, continues, drafts⟩)
  cases advances with
  | idles _ drafts => exact absurd drafts undrafted
  | drawn draft diagnostics => exact mem
  | published _ _ drafts => exact absurd drafts undrafted
  | forgot _ drafts => exact absurd drafts undrafted
  | _ => cases mem

/-- Only the latest compile is published, when its page files were listed. -/
theorem published_of_advances {operation : Operation} {c : Compiler} {stage : Stage operation}
    {reply : (stage.request c).Reply} {step : Compiler.Step operation}
    (advances : stage.Advances c reply step) {dir : Path} (mem : dir ∈ step.1.published) :
    dir ∈ c.published ∨
      ∃ draft ∈ stage.collected, draft.generation = c.generation ∧ draft.dir = dir := by
  cases advances with
  | @published lines draft names progress diagnostics latest =>
    obtain rfl := Option.some.inj mem
    exact .inr ⟨draft, List.mem_singleton_self _, latest.symm, rfl⟩
  | forgot => cases mem
  | _ => exact .inl mem

namespace Step

variable {w w' : BusyCompiler} {act : Act}

/-- A task after a step waited before, or is what the step left of a call. -/
theorem draft_or_begun (step : Step w act w') {task : Task} (waits : task ∈ w'.tasks)
    {draft : Draft} (held : draft ∈ task.stage.drafts) :
    (∃ old ∈ w.tasks, draft ∈ old.stage.drafts) ∨
      draft ∈ act.begun ∧ w.compiler.target = .ok draft.target := by
  cases step with
  | begins call =>
    rcases List.mem_append.mp waits with old | new
    · exact .inl ⟨task, old, held⟩
    · obtain ⟨stage, continues, rfl⟩ := List.mem_map.mp new
      exact .inr (begun_of_call _ (List.mem_flatMap.mpr ⟨stage, continues, held⟩))
  | @advances before after number operation stage here reply finds =>
    have waiting : (⟨number, operation, stage⟩ : Task) ∈ w.tasks :=
      here ▸ List.mem_append_cons_self
    rcases Task.old_or_next here waits with old | ⟨next, continues, rfl⟩
    · exact .inl ⟨task, old, held⟩
    · have passed := (w.compiler.resume_advances stage reply).next_drafts.subset
      exact .inl ⟨_, waiting, passed (List.mem_flatMap.mpr ⟨next, continues, held⟩)⟩
  | drifts settles => exact .inl ⟨task, waits, held⟩

theorem collected_or_drawn (step : Step w act w') {task : Task} (waits : task ∈ w'.tasks)
    {draft : Draft} (held : draft ∈ task.stage.collected) :
    (∃ old ∈ w.tasks, draft ∈ old.stage.collected) ∨ draft ∈ act.drawn := by
  cases step with
  | begins call =>
    rcases List.mem_append.mp waits with old | new
    · exact .inl ⟨task, old, held⟩
    · obtain ⟨stage, continues, rfl⟩ := List.mem_map.mp new
      have drafts := List.mem_flatMap.mpr ⟨stage, continues, stage.collected_subset_drafts held⟩
      have begun := (begun_of_call w.begun drafts).1
      revert begun continues
      generalize (w.compiler.call call).2 = progress
      intro continues begun
      unfold Act.begun at begun
      split at begun
      · next same =>
        cases same
        obtain rfl := List.mem_singleton.mp continues
        cases held
      · cases begun
  | @advances before after number operation stage here reply finds =>
    rcases Task.old_or_next here waits with old | ⟨next, continues, rfl⟩
    · exact .inl ⟨task, old, held⟩
    · have advances := w.compiler.resume_advances stage reply
      exact .inr (drawn_of_advances number advances (List.mem_flatMap.mpr ⟨next, continues, held⟩))
  | drifts settles => exact .inl ⟨task, waits, held⟩

theorem published_or_collected (step : Step w act w') {dir : Path}
    (mem : dir ∈ w'.compiler.published) :
    dir ∈ w.compiler.published ∨ ∃ task ∈ w.tasks, ∃ draft ∈ task.stage.collected,
      draft.generation = w.compiler.generation ∧ draft.dir = dir := by
  cases step with
  | begins call =>
    have same : (w.compiler.call call).1.published = w.compiler.published :=
      congrArg (·.2.1) (w.compiler.call_begins call).served
    exact .inl (same ▸ mem)
  | @advances before after number operation stage waits reply finds =>
    have waiting : (⟨number, operation, stage⟩ : Task) ∈ w.tasks :=
      waits ▸ List.mem_append_cons_self
    refine (published_of_advances (w.compiler.resume_advances stage reply) mem).imp_right ?_
    exact fun listed => ⟨_, waiting, listed⟩
  | drifts settles => exact .inl mem

theorem generation_le (step : Step w act w') :
    w.compiler.generation ≤ w'.compiler.generation := by
  cases step with
  | begins call => exact (w.compiler.call_begins call).generation_le
  | advances => exact (w.compiler.resume_advances _ _).generation
  | drifts => exact Nat.le_refl _

theorem generation_lt_of_forgets (step : Step w act w') (forgets : Forgets ⟨w, act, w'⟩) :
    w.compiler.generation < w'.compiler.generation := by
  obtain ⟨root, main, forgot⟩ := step.forgets forgets
  rw [forgot]
  exact Nat.lt_succ_self _

end Step

/-! ## What is published -/

/-- The compile began for what was selected then, and no selection has forgotten the
    pages since.  If none was about to take over either, the same is selected still. -/
def Unforgotten (moves : List (Move BusyCompiler Act)) (w : BusyCompiler) (draft : Draft) : Prop :=
  ∃ first start rest, moves = first ++ start :: rest ∧ draft ∈ start.act.begun ∧
    start.before.compiler.target = .ok draft.target ∧ (∀ move ∈ rest, ¬ Forgets move) ∧
    (¬ start.before.Leaving → w.compiler.target = .ok draft.target ∧ ¬ w.Leaving)

theorem not_forgets_of_begun {w w' : BusyCompiler} {act : Act} {draft : Draft}
    (begun : draft ∈ act.begun) : ¬ Forgets ⟨w, act, w'⟩ := by
  intro forgets
  cases act with
  | begins number call progress => cases forgets
  | _ => cases begun

namespace Unforgotten

variable {moves : List (Move BusyCompiler Act)} {w w' : BusyCompiler} {act : Act} {draft : Draft}

theorem begins (moves : List (Move BusyCompiler Act)) (step : Step w act w')
    (begun : draft ∈ act.begun) (target : w.compiler.target = .ok draft.target) :
    Unforgotten (moves ++ [⟨w, act, w'⟩]) w' draft := by
  refine ⟨moves, ⟨w, act, w'⟩, [], rfl, begun, target, (fun _ mem => nomatch mem), fun still => ?_⟩
  obtain ⟨same, still⟩ := step.settled still (not_forgets_of_begun begun)
  exact ⟨same.trans target, still⟩

theorem snoc (unforgotten : Unforgotten moves w draft) (step : Step w act w')
    (kept : ¬ Forgets ⟨w, act, w'⟩) : Unforgotten (moves ++ [⟨w, act, w'⟩]) w' draft := by
  obtain ⟨first, start, rest, rfl, begun, target, quiet, current⟩ := unforgotten
  refine ⟨first, start, rest ++ [⟨w, act, w'⟩], by simp, begun, target, ?_, fun still => ?_⟩
  · intro move mem
    rcases List.mem_append.mp mem with old | new
    · exact quiet move old
    · exact List.mem_singleton.mp new ▸ kept
  · obtain ⟨same, still⟩ := current still
    obtain ⟨unchanged, still⟩ := step.settled still kept
    exact ⟨unchanged.trans same, still⟩

end Unforgotten

/-- The compile of the latest generation is unforgotten, and so is the one that is
    published, of which the pages were drawn. -/
structure Origins (moves : List (Move BusyCompiler Act)) (w : BusyCompiler) : Prop where
  collected : ∀ task ∈ w.tasks, ∀ draft ∈ task.stage.collected, draft ∈ drawn moves
  latest : ∀ task ∈ w.tasks, ∀ draft ∈ task.stage.drafts,
    draft.generation = w.compiler.generation → Unforgotten moves w draft
  published : ∀ dir ∈ w.compiler.published, ∃ draft ∈ drawn moves, draft.dir = dir ∧
    Unforgotten moves w draft

/-- A selection that forgets the pages leaves nothing published, and no compile that is
    the latest; every other step keeps what it finds. -/
theorem Origins.step {moves : List (Move BusyCompiler Act)} {w w' : BusyCompiler} {act : Act}
    (origins : Origins moves w)
    (issued : ∀ task ∈ w.tasks, ∀ draft ∈ task.stage.drafts,
      draft.generation ≤ w.compiler.generation)
    (step : Step w act w') : Origins (moves ++ [⟨w, act, w'⟩]) w' := by
  refine ⟨fun task waits draft held => ?_, fun task waits draft held latest => ?_,
    fun dir mem => ?_⟩
  · rw [drawn_snoc]
    rcases step.collected_or_drawn waits held with ⟨old, waited, held⟩ | new
    · exact List.mem_append_left _ (origins.collected old waited draft held)
    · exact List.mem_append_right _ new
  · rcases step.draft_or_begun waits held with ⟨old, waited, held⟩ | ⟨begun, target⟩
    · -- forgetting makes every compile late that had begun
      have below := issued old waited draft held
      have grows := step.generation_le
      have kept : ¬ Forgets ⟨w, act, w'⟩ := by
        intro forgets
        have newer := step.generation_lt_of_forgets forgets
        omega
      exact (origins.latest old waited draft held (by omega)).snoc step kept
    · exact .begins moves step begun target
  · have kept : ¬ Forgets ⟨w, act, w'⟩ := by
      intro forgets
      have nothing : w'.compiler.published = none :=
        congrArg (·.2.1) (step.served_of_forgets forgets)
      rw [nothing] at mem
      cases mem
    rw [drawn_snoc]
    rcases step.published_or_collected mem with old | ⟨task, waits, draft, held, latest, here⟩
    · obtain ⟨draft, known, here, unforgotten⟩ := origins.published dir old
      exact ⟨draft, List.mem_append_left _ known, here, unforgotten.snoc step kept⟩
    · have drafts := task.stage.collected_subset_drafts held
      have unforgotten := origins.latest task waits draft drafts latest
      have known := origins.collected task waits draft held
      exact ⟨draft, List.mem_append_left _ known, here, unforgotten.snoc step kept⟩

theorem origins_of_run {program outDir : Path} {ppi : Nat} {entries : Entries}
    {moves : List (Move BusyCompiler Act)} {w : BusyCompiler}
    (run : Run Step (.opened program ppi outDir entries) moves w) : Origins moves w := by
  refine run.keepsAlong (P := Origins)
    ⟨(fun _ mem => nomatch mem), (fun _ mem => nomatch mem), fun _ mem => nomatch mem⟩
    fun {moves w act w'} earlier origins step => ?_
  obtain ⟨shown, -, -, kept⟩ := kept_of_run earlier
  exact origins.step (fun task waits draft held => kept.ranked.generation_le waits held) step

/-- A main document is selected and compiled, and its page is served.  Another one is
    selected; while the directory of the page is removed, a compile begins. -/
theorem compile_during_selection :
    ∃ first u moves w, Run Step (.opened ⟨"typst"⟩ 144 ⟨"/out"⟩ fun _ => False) first u ∧
      u.compiler.pages = [(folder ⟨"/out"⟩ 2).child "page-1.png"] ∧
      Run Step (.opened ⟨"typst"⟩ 144 ⟨"/out"⟩ fun _ => False) moves w ∧
      w.compiler.pages = [(folder ⟨"/out"⟩ 4).child "page-1.png"] ∧
      w.compiler.main = some ⟨"/doc/b.typ"⟩ ∧
      ∀ draft ∈ drawn moves, draft.target.main = ⟨"/doc/a.typ"⟩ := by
  let a : Path := ⟨"/doc/a.typ"⟩
  let b : Path := ⟨"/doc/b.typ"⟩
  let draft (generation : Nat) : Draft :=
    ⟨⟨a.parent?.getD ⟨""⟩, a⟩, generation, folder ⟨"/out"⟩ generation⟩
  have compiled := ((Run.nil.snoc
    (Step.begins (.opened ⟨"typst"⟩ 144 ⟨"/out"⟩ fun _ => False) (.setMainDocument a))).snoc
    (Step.alone (.openingMain a) (Except.ok .file) rfl trivial)).snoc (Step.begins _ .compile)
  obtain ⟨first, lines, published, drew, -⟩ :=
    publishes_page compiled (draft 2) rfl rfl rfl (lists_nothing _)
  have leaving := (published.snoc (Step.begins _ (.setMainDocument b))).snoc
    (Step.alone (.openingMain b) (Except.ok .file) rfl trivial)
  have between := (leaving.snoc (Step.begins _ .compile)).snoc
    (@Step.advances _ [] _ _ _ (.leavingMain b (folder ⟨"/out"⟩ 2) []) rfl (Except.ok ()) trivial)
  have others : Lists (Entries.add (fun _ => False) (folder ⟨"/out"⟩ 2) "page-1.png")
      (folder ⟨"/out"⟩ 4) [] := (lists_nothing _).beside (by decide) (by decide)
  obtain ⟨second, lines', served, drew', -⟩ :=
    publishes_page between (draft 4) rfl rfl rfl others
  have page : ∀ n ∈ [2, 4], pageFiles (folder ⟨"/out"⟩ n) ["page-1.png"] =
      [(folder ⟨"/out"⟩ n).child "page-1.png"] := by decide +kernel
  refine ⟨_, _, _, _, published, page 2 (by decide), served, page 4 (by decide), rfl, ?_⟩
  simp only [drawn_append, drew, drew']
  exact List.forall_mem_cons.mpr ⟨rfl, List.forall_mem_singleton.mpr rfl⟩

/-- Pages that are served were drawn for what was selected when their compile began, and
    no selection has forgotten the pages since.  Unless one was just then between
    forgetting and taking over, they were drawn for what is selected. -/
theorem pages_of_unforgotten_compile {program outDir : Path} {ppi : Nat} {entries : Entries}
    {moves : List (Move BusyCompiler Act)} {w : BusyCompiler}
    (run : Run Step (.opened program ppi outDir entries) moves w)
    (serves : w.compiler.pages ≠ []) :
    ∃ draft ∈ drawn moves, w.compiler.published = some draft.dir ∧ Unforgotten moves w draft := by
  obtain ⟨shown, -, -, kept⟩ := kept_of_run run
  cases published : w.compiler.published with
  | none => exact absurd (kept.serves.empty published).1 serves
  | some dir =>
    obtain ⟨draft, known, rfl, unforgotten⟩ := (origins_of_run run).published dir published
    exact ⟨draft, known, rfl, unforgotten⟩

/-- A page is served, and no selection has forgotten its compile. -/
theorem unforgotten_page_served : ∃ moves w,
    Run Step (.opened ⟨"typst"⟩ 144 ⟨"/out"⟩ fun _ => False) moves w ∧ w.compiler.pages ≠ [] ∧
      ∃ draft ∈ drawn moves, w.compiler.published = some draft.dir ∧
        Unforgotten moves w draft := by
  obtain ⟨moves, w, -, -, run, pages, -⟩ := compile_during_selection
  have serves : w.compiler.pages ≠ [] := by simp [pages]
  exact ⟨moves, w, run, serves, pages_of_unforgotten_compile run serves⟩

/-- Whether the pages that are served were drawn for what is selected. -/
def ServesSelected (moves : List (Move BusyCompiler Act)) (w : BusyCompiler) : Prop :=
  w.compiler.pages ≠ [] → ∃ draft ∈ drawn moves,
    w.compiler.published = some draft.dir ∧ w.compiler.target = .ok draft.target

/-- The pages of the document that was selected before are served after another one is
    selected. -/
theorem previous_target_served : ∃ moves w,
    Run Step (.opened ⟨"typst"⟩ 144 ⟨"/out"⟩ fun _ => False) moves w ∧
      ¬ ServesSelected moves w := by
  obtain ⟨-, -, moves, w, -, -, run, pages, main, drawings⟩ := compile_during_selection
  refine ⟨moves, w, run, fun serves => ?_⟩
  obtain ⟨draft, known, -, target⟩ := serves (by simp [pages])
  have selected : draft.target.main = ⟨"/doc/b.typ"⟩ := by
    simp only [Compiler.target, main, Except.ok.injEq] at target
    rw [← target]
  rw [drawings draft known] at selected
  exact absurd selected (by decide)

end BusyCompiler

end LivePreview.Compiler
