import LivePreview.Proofs.Compiler.Generations
import LivePreview.Proofs.Compiler.Verdict

/-!
# Publications

What is published, retired and removed in any run of calls (`directories_in_custody`).
-/

namespace LivePreview.Compiler

open Preview (Progress)

theorem leaveRoot_succeeds (c : Compiler) (path : Path) (stale : List Path) (f : Failure) :
    (c.leaveRoot path stale).2 ≠ .ended (.error f) := by
  cases stale <;> exact nofun

theorem leaveMain_succeeds (c : Compiler) (path : Path) (stale : List Path) (f : Failure) :
    (c.leaveMain path stale).2 ≠ .ended (.error f) := by
  cases stale <;> exact nofun

/-- A selection fails and changes nothing, or it forgets the pages. -/
theorem resume_selects {operation : Operation} {c : Compiler} {stage : Stage operation}
    (selects : stage.Selects) (reply : (stage.request c).Reply) :
    ((c.resume stage reply).1 = c ∧ ∃ f, (c.resume stage reply).2 = .ended (.error f)) ∨
      (∃ root main, (c.resume stage reply).1 = { c.forget.2 with root, main }) ∧
        ∀ f, (c.resume stage reply).2 ≠ .ended (.error f) := by
  cases stage with
  | openingRoot path =>
    cases reply with
    | error e => exact .inl ⟨rfl, _, rfl⟩
    | ok kind =>
      cases kind with
      | file => exact .inl ⟨rfl, _, rfl⟩
      | directory =>
        exact .inr ⟨(leaveRoot_leaves c.forget.2 path c.forget.1).rest, leaveRoot_succeeds _ _ _⟩
  | openingMain path =>
    cases reply with
    | error e => exact .inl ⟨rfl, _, rfl⟩
    | ok kind =>
      exact .inr ⟨(leaveMain_leaves c.forget.2 path c.forget.1).rest, leaveMain_succeeds _ _ _⟩
  | _ => cases selects

namespace BusyCompiler

def Forgets (move : Move BusyCompiler Act) : Prop :=
  match move.act with
  | .advances _ _ stage _ _ progress => stage.Selects ∧ ∀ f, progress ≠ .ended (.error f)
  | _ => False

theorem Step.forgets {w w' : BusyCompiler} {act : Act} (step : Step w act w')
    (forgets : Forgets ⟨w, act, w'⟩) :
    ∃ root main, w'.compiler = { w.compiler.forget.2 with root, main } := by
  cases step with
  | begins call => cases forgets
  | @advances before after number operation stage waits reply finds =>
    rcases resume_selects forgets.1 reply with ⟨-, f, failed⟩ | ⟨forgot, -⟩
    · exact absurd failed (forgets.2 f)
    · exact forgot
  | drifts settles => cases forgets

theorem Step.served_of_forgets {w w' : BusyCompiler} {act : Act} (step : Step w act w')
    (forgets : Forgets ⟨w, act, w'⟩) : w'.compiler.served = ([], none, none) := by
  obtain ⟨root, main, forgot⟩ := step.forgets forgets
  rw [forgot]
  rfl

/-- Generations are published in their order; the pages are those in the published
    directory, and none after a selection; the retired one is older.  A compile in vain
    changes none of that.  What is given to be removed is not served, then or later,
    and is given once.  When no call waits, all directories that were made have been
    removed but for those that are served from. -/
theorem directories_in_custody {program outDir : Path} {ppi : Nat} {entries : Entries}
    {moves : List (Move BusyCompiler Act)} {w : BusyCompiler}
    (run : Run Step (.opened program ppi outDir entries) moves w) :
    (∃ generations : List Nat, moves.flatMap published = generations.map (folder outDir) ∧
      generations.Pairwise (· < ·)) ∧
    Serves w.entries w.compiler ∧ Older w.compiler ∧
    (∀ move ∈ moves, Forgets move → move.after.compiler.served = ([], none, none)) ∧
    (∀ number, ∀ move ∈ moves, Vain number move → ∀ other ∈ moves, number ∈ other.act.compile? →
      other.after.compiler.served = other.before.compiler.served) ∧
    (moves.flatMap removed).Nodup ∧
    (∀ dir ∈ moves.flatMap removed, dir ∉ w.compiler.keptDirs) ∧
    (w.tasks = [] → ∀ dir ∈ moves.flatMap made,
      dir ∈ moves.flatMap removed ∨ dir ∈ w.compiler.keptDirs) := by
  obtain ⟨generations, listed, -, kept⟩ := kept_of_run run
  refine ⟨⟨generations, listed, kept.ranked.order.increasing⟩, kept.serves, kept.older, ?_, ?_,
    kept.removed_apart.1, kept.removed_apart.2, ?_⟩
  · intro move mem forgets
    obtain ⟨earlier, before, step⟩ := run.reach mem
    exact step.served_of_forgets forgets
  · intro number move mem vain other known mine
    exact served_of_vain run mem vain known mine
  · intro idle dir mem
    have held := kept.made dir mem
    rw [idle, List.flatMap_nil, List.append_nil] at held
    exact List.mem_append.mp held

/-- A compile that waits alone may draw a page and publish it. -/
theorem publishes_page {program outDir : Path} {ppi : Nat} {entries : Entries}
    {moves : List (Move BusyCompiler Act)} {w : BusyCompiler}
    (run : Run Step (.opened program ppi outDir entries) moves w) {number : Nat} (draft : Draft)
    (waits : w.tasks = [⟨number, .compile, .preparing draft⟩])
    (latest : w.compiler.generation = draft.generation) (unretired : w.compiler.retired = none)
    (empty : Lists w.entries draft.dir []) :
    ∃ steps lines, Run Step (.opened program ppi outDir entries) (moves ++ steps)
      ⟨{ w.compiler with
          pages := pageFiles draft.dir ["page-1.png"], published := some draft.dir,
          retired := w.compiler.published, lines },
        w.entries.add draft.dir "page-1.png", w.begun, []⟩ ∧
      drawn steps = [draft] ∧ steps.flatMap made = [draft.dir] ∧ steps.flatMap removed = [] ∧
      (w.compiler.published ≠ some draft.dir → steps.flatMap published = [draft.dir]) := by
  let silent : Host.Run := ⟨.exited 0, .empty⟩
  let filled := w.entries.add draft.dir "page-1.png"
  let c := w.compiler.say (skippedLines draft.target (.ok silent))
  let diagnostics := (report draft.target silent).diagnostics
  have plain : '/' ∉ "page-1.png".toList := by decide
  have settles : Settles w.compiler.outDir [draft.dir] w.entries
      (w.entries.add draft.dir "page-1.png") := by
    obtain ⟨shown, -, -, kept⟩ := kept_of_run run
    have waiting : (⟨number, .compile, .preparing draft⟩ : Task) ∈ w.tasks := by simp [waits]
    rw [kept.ranked.named _ waiting draft (List.mem_singleton_self _)]
    exact .add _ plain (List.mem_singleton_self _)
  have drawing : Run Step w _
      ⟨c, filled, w.begun, [⟨number, .compile, .collecting draft diagnostics⟩]⟩ :=
    ((Run.one (Step.alone (.preparing draft) (Except.ok ()) waits trivial)).snoc
      (Step.drifts settles)).snoc (Step.alone (.compiling draft) (Except.ok silent) rfl trivial)
  have listed := Step.alone (w := ⟨c, filled, w.begun, [⟨number, _, _⟩]⟩)
    (.collecting draft diagnostics) (Except.ok ["page-1.png"]) rfl
    (empty.add plain List.not_mem_nil)
  obtain ⟨lines, publishes⟩ :=
    afterCollect_unretired (c := c) diagnostics ["page-1.png"] latest unretired
  simp only [resume, publishes] at listed
  refine ⟨_, lines, run.append (drawing.snoc listed), rfl, rfl, rfl, fun fresh => ?_⟩
  refine List.flatMap_append.trans (congrArg₂ (· ++ ·) (List.flatMap_eq_nil_iff.mpr ?_)
    ((List.append_nil _).trans (newlyPublished_of_ne fresh.symm)))
  exact List.forall_mem_cons.mpr ⟨newlyPublished_of_eq rfl, List.forall_mem_cons.mpr
    ⟨newlyPublished_of_eq rfl, List.forall_mem_singleton.mpr (newlyPublished_of_eq rfl)⟩⟩

/-- The directory of a compile that waits first and was overtaken is made, and removed again. -/
theorem discards_overtaken {program outDir : Path} {ppi : Nat} {entries : Entries}
    {moves : List (Move BusyCompiler Act)} {w : BusyCompiler}
    (run : Run Step (.opened program ppi outDir entries) moves w) {number : Nat} (draft : Draft)
    {others : List Task} (waits : w.tasks = ⟨number, .compile, .preparing draft⟩ :: others)
    (late : w.compiler.generation ≠ draft.generation) (empty : Lists w.entries draft.dir []) :
    ∃ steps lines, Run Step (.opened program ppi outDir entries) (moves ++ steps)
      ⟨{ w.compiler with lines }, w.entries, w.begun, others⟩ ∧
      steps.flatMap made = [draft.dir] ∧ steps.flatMap removed = [draft.dir] ∧
      steps.flatMap published = [] := by
  let silent : Host.Run := ⟨.exited 0, .empty⟩
  let c := w.compiler.say (skippedLines draft.target (.ok silent))
  let diagnostics := (report draft.target silent).diagnostics
  have drawing : Run Step w _
      ⟨c, w.entries, w.begun, ⟨number, .compile, .collecting draft diagnostics⟩ :: others⟩ :=
    (Run.one (@Step.advances _ [] _ _ _ _ waits (Except.ok ()) trivial)).snoc
      (@Step.advances _ [] _ _ _ (.compiling draft) rfl (Except.ok silent) trivial)
  have listed := @Step.advances ⟨c, w.entries, w.begun, ⟨number, _, _⟩ :: others⟩ [] _ _ _
    (.collecting draft diagnostics) rfl (Except.ok []) empty
  obtain ⟨lines, discarding⟩ := afterCollect_late (c := c) diagnostics [] late
  simp only [resume, discarding] at listed
  have discarded := @Step.advances
    ⟨{ c with lines }, w.entries, w.begun, ⟨number, .compile, _⟩ :: others⟩ [] _ _ _
    (.discarding draft.dir [] (.ok diagnostics)) rfl (Except.ok ()) trivial
  refine ⟨_, lines ++ [], run.append ((drawing.snoc listed).snoc discarded), rfl, rfl, ?_⟩
  exact List.flatMap_eq_nil_iff.mpr (List.forall_mem_cons.mpr ⟨newlyPublished_of_eq rfl,
    List.forall_mem_cons.mpr ⟨newlyPublished_of_eq rfl,
      List.forall_mem_cons.mpr ⟨newlyPublished_of_eq rfl,
        List.forall_mem_singleton.mpr (newlyPublished_of_eq rfl)⟩⟩⟩)

/-- Two pages are published, while the first is retired and a compile between them is overtaken. -/
theorem overtaken_directory_removed : ∃ moves w,
    Run Step (.opened ⟨"typst"⟩ 144 ⟨"/out"⟩ fun _ => False) moves w ∧
      moves.flatMap published = [folder ⟨"/out"⟩ 2, folder ⟨"/out"⟩ 4] ∧
      moves.flatMap made = [folder ⟨"/out"⟩ 2, folder ⟨"/out"⟩ 3, folder ⟨"/out"⟩ 4] ∧
      moves.flatMap removed = [folder ⟨"/out"⟩ 3] ∧
      w.compiler.keptDirs = [folder ⟨"/out"⟩ 4, folder ⟨"/out"⟩ 2] ∧
      w.compiler.pages = [(folder ⟨"/out"⟩ 4).child "page-1.png"] ∧ w.tasks = [] ∧
      Serves w.entries w.compiler ∧ Older w.compiler ∧
      ∀ dir ∈ moves.flatMap made, dir ∈ moves.flatMap removed ∨ dir ∈ w.compiler.keptDirs := by
  let main : Path := ⟨"/doc/main.typ"⟩
  let draft (generation : Nat) : Draft :=
    ⟨⟨main.parent?.getD ⟨""⟩, main⟩, generation, folder ⟨"/out"⟩ generation⟩
  have began := ((Run.nil.snoc
    (Step.begins (.opened ⟨"typst"⟩ 144 ⟨"/out"⟩ fun _ => False) (.setMainDocument main))).snoc
    (Step.alone (.openingMain main) (Except.ok .file) rfl trivial)).snoc (Step.begins _ .compile)
  obtain ⟨first, lines, run, -, firstMade, firstRemoved, firstPublished⟩ :=
    publishes_page began (draft 2) rfl rfl rfl (lists_nothing _)
  have others : ∀ n ≠ 2, Lists (Entries.add (fun _ => False) (folder ⟨"/out"⟩ 2) "page-1.png")
      (folder ⟨"/out"⟩ n) [] :=
    fun _ other => (lists_nothing _).beside (by decide) other
  obtain ⟨second, lines, run, lateMade, lateRemoved, latePublished⟩ :=
    discards_overtaken ((run.snoc (Step.begins _ .compile)).snoc (Step.begins _ .compile)) (draft 3)
      rfl (show 4 ≠ 3 by decide) (others 3 (by decide))
  obtain ⟨third, lines, run, -, lastMade, lastRemoved, lastPublished⟩ :=
    publishes_page run (draft 4) rfl rfl rfl (others 4 (by decide))
  have apart : folder ⟨"/out"⟩ 2 ≠ folder ⟨"/out"⟩ 4 := fun same =>
    absurd (folder_injective same) (by decide)
  have firstPublished := firstPublished nofun
  have lastPublished := lastPublished fun same => apart (Option.some.inj same)
  obtain ⟨-, serves, older, -, -, -, -, settled⟩ := directories_in_custody run
  have page : pageFiles (folder ⟨"/out"⟩ 4) ["page-1.png"] =
      [(folder ⟨"/out"⟩ 4).child "page-1.png"] := by decide +kernel
  refine ⟨_, _, run, ?_, ?_, ?_, rfl, page, rfl, serves, older, settled rfl⟩
  · simp only [List.flatMap_append, firstPublished, latePublished, lastPublished]
    rfl
  · simp only [List.flatMap_append, firstMade, lateMade, lastMade]
    rfl
  · simp only [List.flatMap_append, firstRemoved, lateRemoved, lastRemoved, List.flatMap_singleton,
      removed_begins, removed_advances]
    rfl

end BusyCompiler

end LivePreview.Compiler
