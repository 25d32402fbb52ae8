import LivePreview.Proofs.Compiler.BusyCompiler

/-!
# Custody of the directories

Every directory of a generation has one holder: the call that draws into it, the
compiler that serves from it, or the record of what was given to be removed (`Kept`).
A step hands directories on, and the numbers of the published ones go on record in
their order.
-/

namespace LivePreview.Compiler

open Preview (Progress)

/-- The pages that are served are the listing of the published directory, as it is. -/
structure Serves (entries : Entries) (c : Compiler) : Prop where
  listed : ∀ dir ∈ c.published, ∃ names, Lists entries dir names ∧ c.pages = pageFiles dir names
  empty : c.published = none → c.pages = [] ∧ c.retired = none

/-- The retired directory is of an earlier generation than the published one. -/
def Older (c : Compiler) : Prop :=
  ∀ dir ∈ c.retired, ∃ earlier later, earlier < later ∧ dir = folder c.outDir earlier ∧
    c.published = some (folder c.outDir later)

namespace Stage

variable {operation : Operation}

theorem drawing_sublist_places (stage : Stage operation) :
    stage.drawing.Sublist stage.places := by
  cases stage <;> simp [drawing, places, awaited, dirs]

namespace Advances

variable {c : Compiler} {stage : Stage operation} {reply : (stage.request c).Reply}
  {step : Step operation}

theorem serves {entries : Entries} (advances : Advances c stage reply step)
    (serves : Serves entries c) (finds : Finds entries _ reply) : Serves entries step.1 := by
  cases advances with
  | @published lines draft names progress diagnostics latest undrafted empty removing settled =>
    refine ⟨?_, fun none => nomatch none⟩
    rintro dir ⟨⟩
    exact ⟨names, finds, rfl⟩
  | forgot => exact ⟨(fun dir mem => nomatch mem), fun _ => ⟨rfl, rfl⟩⟩
  | _ => exact ⟨serves.listed, serves.empty⟩

theorem older (advances : Advances c stage reply step) (older : Older c)
    (named : ∀ draft ∈ stage.drafts, draft.dir = folder c.outDir draft.generation)
    (below : ∀ draft ∈ stage.drafts, c.generation = draft.generation → ∀ dir ∈ c.published,
      ∃ n < draft.generation, dir = folder c.outDir n) : Older step.1 := by
  cases advances with
  | @published lines draft names progress diagnostics latest undrafted empty removing settled =>
    intro dir mem
    have mine : draft ∈ [draft] := List.mem_singleton_self _
    obtain ⟨earlier, before, here⟩ := below draft mine latest dir mem
    exact ⟨earlier, draft.generation, before, here, congrArg some (named draft mine)⟩
  | forgot => exact fun dir mem => nomatch mem
  | _ => exact older

end Advances

end Stage

namespace BusyCompiler

/-- Every directory has one holder, that keeps it until it is to be removed. -/
structure Kept (shown : List Nat) (made removed : List Path) (w : BusyCompiler) : Prop where
  ranked : Ranked (fun task : Task => task.stage.drafts) shown w.tasks w.compiler
  apart : (removed ++ w.compiler.keptDirs ++ w.tasks.flatMap fun task => task.stage.places).Nodup
  issued : ∀ dir ∈ removed ++ w.compiler.keptDirs ++ w.tasks.flatMap fun task => task.stage.places,
    ∃ generation ≤ w.compiler.generation, dir = folder w.compiler.outDir generation
  removing : ∀ task ∈ w.tasks, ∀ dir ∈ task.stage.removing, dir ∈ removed
  made : ∀ dir ∈ made,
    dir ∈ removed ++ w.compiler.keptDirs ++ w.tasks.flatMap fun task => task.stage.dirs
  serves : Serves w.entries w.compiler
  older : Older w.compiler

namespace Kept

theorem opened (program : Path) (ppi : Nat) (outDir : Path) (entries : Entries) :
    Kept [] [] [] (.opened program ppi outDir entries) where
  ranked := ⟨.start 0, (fun _ mem => nomatch mem), fun _ mem => nomatch mem⟩
  apart := List.nodup_nil
  issued _ mem := nomatch mem
  removing _ mem := nomatch mem
  made _ mem := nomatch mem
  serves := ⟨(fun _ mem => nomatch mem), fun _ => ⟨rfl, rfl⟩⟩
  older _ mem := nomatch mem

variable {shown : List Nat} {made removed : List Path} {w : BusyCompiler}

theorem places_apart (kept : Kept shown made removed w) {task : Task} (waits : task ∈ w.tasks)
    {dir : Path} (held : dir ∈ task.stage.places) : dir ∉ w.compiler.keptDirs := by
  intro mem
  have apart := kept.apart
  rw [List.append_assoc, List.nodup_append] at apart
  exact (List.nodup_append.mp apart.2.1).2.2 dir mem dir
    (List.mem_flatMap.mpr ⟨task, waits, held⟩) rfl

/-- What is given to be removed is not served, and not given again. -/
theorem removed_apart (kept : Kept shown made removed w) :
    removed.Nodup ∧ ∀ dir ∈ removed, dir ∉ w.compiler.keptDirs := by
  have apart := kept.apart
  rw [List.append_assoc, List.nodup_append] at apart
  exact ⟨apart.1, fun dir given mem => apart.2.2 dir given dir (List.mem_append_left _ mem) rfl⟩

/-- What changes by itself is not served. -/
theorem loose_apart (kept : Kept shown made removed w) {dir : Path} (loose : dir ∈ w.loose) :
    dir ∉ w.compiler.keptDirs := by
  obtain ⟨task, waits, changes⟩ := List.mem_flatMap.mp loose
  rcases List.mem_append.mp changes with draws | removes
  · exact kept.places_apart waits (task.stage.drawing_sublist_places.subset draws)
  · exact kept.removed_apart.2 dir (kept.removing task waits dir removes)

theorem drifts (kept : Kept shown made removed w) {entries : Entries}
    (settles : Settles w.compiler.outDir w.loose w.entries entries) :
    Kept shown made removed { w with entries } := by
  refine { kept with serves := ⟨fun dir mem => ?_, kept.serves.empty⟩ }
  obtain ⟨names, lists, pages⟩ := kept.serves.listed dir mem
  obtain ⟨number, -, rfl⟩ := kept.ranked.published dir mem
  refine ⟨names, lists.of_settles settles fun loose => ?_, pages⟩
  exact kept.loose_apart loose (List.mem_append_left _ (Option.mem_toList.mpr mem))

theorem advances (kept : Kept shown made removed w) {before after : List Task} {number : Nat}
    {operation : Operation} {stage : Stage operation}
    (waits : w.tasks = before ++ ⟨number, operation, stage⟩ :: after)
    {reply : (stage.request w.compiler).Reply} {step : Compiler.Step operation}
    (advances : stage.Advances w.compiler reply step) (finds : Finds w.entries _ reply)
    {arrived : List Path}
    (arrives : ∀ dir ∈ arrived, dir ∈ step.2.next.flatMap Stage.dirs) :
    ∃ new : List Nat, newlyPublished w.compiler step.1 = new.map (folder w.compiler.outDir) ∧
      Kept (shown ++ new) (made ++ arrived) (removed ++ step.2.next.flatMap Stage.removing)
        { w with compiler := step.1, tasks := before ++ Task.next number step.2 ++ after } := by
  have waiting : (⟨number, operation, stage⟩ : Task) ∈ w.tasks :=
    waits ▸ List.mem_append_cons_self
  obtain ⟨new, newly, ranked⟩ := (waits ▸ kept.ranked).advances advances rfl
    (Task.next_flatMap Stage.drafts number step.2)
  -- a directory may leave, but is in no more places than before
  have moved : ∀ dir, (removed ++ step.2.next.flatMap Stage.removing ++ step.1.keptDirs ++
        (before ++ Task.next number step.2 ++ after).flatMap fun task =>
          task.stage.places).count dir ≤
      (removed ++ w.compiler.keptDirs ++
        w.tasks.flatMap fun task => task.stage.places).count dir := by
    intro dir
    have moved := advances.count_le dir
    simp only [waits, List.flatMap_append, List.flatMap_cons, Task.next_flatMap,
      List.count_append] at moved ⊢
    omega
  refine ⟨new, newly, ranked, ?_, ?_, ?_, ?_, advances.serves kept.serves finds, ?_⟩
  · rw [List.nodup_iff_count_le_one]
    exact fun dir => Nat.le_trans (moved dir) (List.nodup_iff_count_le_one.mp kept.apart dir)
  · intro dir mem
    have counted := Nat.lt_of_lt_of_le (List.count_pos_iff.mpr mem) (moved dir)
    have before := List.count_pos_iff.mp counted
    obtain ⟨generation, below, here⟩ := kept.issued dir before
    exact ⟨generation, Nat.le_trans below advances.generation, advances.outDir ▸ here⟩
  · intro task mem dir removes
    rcases Task.old_or_next waits mem with old | ⟨next, continues, rfl⟩
    · exact List.mem_append_left _ (kept.removing task old dir removes)
    · exact List.mem_append_right _ (List.mem_flatMap.mpr ⟨next, continues, removes⟩)
  · intro dir mem
    rcases List.mem_append.mp mem with old | new
    · have held := kept.made dir old
      have kept : dir ∈ w.compiler.keptDirs ++ stage.dirs → _ := advances.mem_of_mem
      simp only [waits, List.flatMap_append, List.flatMap_cons, Task.next_flatMap,
        List.mem_append] at held kept ⊢
      grind
    · have held := arrives dir new
      simp only [List.flatMap_append, Task.next_flatMap, List.mem_append]
      grind
  · exact advances.older kept.older (kept.ranked.named _ waiting) fun draft held latest dir =>
      kept.ranked.earlier waiting held latest

/-- Another call joins, with directories that nobody had before. -/
theorem joins (kept : Kept shown made removed w) {next : List Task} {generation : Nat}
    (begun : Nat)
    (ranked : Ranked (fun task : Task => task.stage.drafts) shown (w.tasks ++ next)
      { w.compiler with generation })
    (grows : w.compiler.generation ≤ generation)
    (places : (next.flatMap fun task => task.stage.places).Nodup)
    (fresh : ∀ dir ∈ next.flatMap fun task => task.stage.places, ∃ n, w.compiler.generation < n ∧
      n ≤ generation ∧ dir = folder w.compiler.outDir n)
    (removing : ∀ task ∈ next, task.stage.removing = []) :
    Kept shown made removed
      { w with compiler := { w.compiler with generation }, begun, tasks := w.tasks ++ next } := by
  refine ⟨ranked, ?_, ?_, ?_, ?_, ⟨kept.serves.listed, kept.serves.empty⟩, kept.older⟩
  · rw [List.flatMap_append, ← List.append_assoc, List.nodup_append]
    refine ⟨kept.apart, places, ?_⟩
    rintro dir known _ new rfl
    obtain ⟨earlier, below, here⟩ := kept.issued dir known
    obtain ⟨later, above, -, there⟩ := fresh dir new
    have same := folder_injective (here.symm.trans there)
    omega
  · intro dir mem
    rw [List.flatMap_append, ← List.append_assoc] at mem
    rcases List.mem_append.mp mem with known | new
    · obtain ⟨n, below, here⟩ := kept.issued dir known
      exact ⟨n, Nat.le_trans below grows, here⟩
    · obtain ⟨n, -, below, here⟩ := fresh dir new
      exact ⟨n, below, here⟩
  · intro task mem dir removes
    rcases List.mem_append.mp mem with old | new
    · exact kept.removing task old dir removes
    · rw [removing task new] at removes
      cases removes
  · intro dir mem
    rw [List.flatMap_append, ← List.append_assoc]
    exact List.mem_append_left _ (kept.made dir mem)

/-- A call that begins has no directory in hand, unless it is the new one of a compile. -/
theorem begins (kept : Kept shown made removed w) {operation : Operation}
    {step : Compiler.Step operation} (begins : Begins w.compiler step) (number begun : Nat) :
    newlyPublished w.compiler step.1 = [] ∧ step.2.next.flatMap Stage.removing = [] ∧
      Kept shown made removed
        { w with compiler := step.1, begun, tasks := w.tasks ++ Task.next number step.2 } := by
  have ranked := kept.ranked.joins begins (Task.next_flatMap Stage.drafts number step.2)
  cases begins with
  | @idles operation progress drafts dirs removing =>
    have places := (Stage.next_places_of_undrafted drafts).trans dirs
    rw [← Task.next_flatMap _ number] at places
    refine ⟨newlyPublished_of_eq rfl, removing, kept.joins begun ranked (Nat.le_refl _) ?_ ?_ ?_⟩
    · exact places ▸ List.nodup_nil
    · exact places ▸ fun dir mem => nomatch mem
    · intro task mem
      obtain ⟨next, continues, rfl⟩ := List.mem_map.mp mem
      exact List.flatMap_eq_nil_iff.mp removing next continues
  | drafted target =>
    refine ⟨newlyPublished_of_eq rfl, rfl, kept.joins begun ranked (Nat.le_succ _) ?_ ?_ ?_⟩
    · exact List.nodup_singleton _
    · intro dir mem
      rw [List.mem_singleton.mp mem]
      exact ⟨_, Nat.lt_succ_self _, Nat.le_refl _, rfl⟩
    · intro task mem
      rw [List.mem_singleton.mp mem]
      rfl

theorem step (kept : Kept shown made removed w) {act : Act} {w' : BusyCompiler}
    (step : Step w act w') :
    ∃ new : List Nat, BusyCompiler.published ⟨w, act, w'⟩ = new.map (folder w.compiler.outDir) ∧
      w'.compiler.outDir = w.compiler.outDir ∧
      Kept (shown ++ new) (made ++ BusyCompiler.made ⟨w, act, w'⟩)
        (removed ++ BusyCompiler.removed ⟨w, act, w'⟩) w' := by
  cases step with
  | begins call =>
    have begins := w.compiler.call_begins call
    obtain ⟨published, removing, kept⟩ := kept.begins begins w.begun (w.begun + 1)
    refine ⟨[], published, begins.outDir, ?_⟩
    rw [removed_begins, removing]
    simpa [BusyCompiler.made, Act.made] using kept
  | @advances before after number operation stage waits reply finds =>
    have advances := w.compiler.resume_advances stage reply
    have arrives : ∀ dir ∈ Act.made (.advances number operation stage _ reply
        (w.compiler.resume stage reply).2),
        dir ∈ (w.compiler.resume stage reply).2.next.flatMap Stage.dirs := by
      intro dir mem
      cases operation with
      | compile => exact advances.mem_of_makes mem
      | _ => cases mem
    obtain ⟨new, newly, kept⟩ := kept.advances waits advances finds arrives
    exact ⟨new, newly, advances.outDir, removed_advances .. ▸ kept⟩
  | drifts settles =>
    refine ⟨[], newlyPublished_of_eq rfl, rfl, ?_⟩
    simpa [BusyCompiler.made, Act.made, BusyCompiler.removed, asked] using kept.drifts settles

end Kept

theorem kept_of_run {program outDir : Path} {ppi : Nat} {entries : Entries}
    {moves : List (Move BusyCompiler Act)} {w : BusyCompiler}
    (run : Run Step (.opened program ppi outDir entries) moves w) :
    ∃ shown : List Nat, moves.flatMap published = shown.map (folder outDir) ∧
      w.compiler.outDir = outDir ∧ Kept shown (moves.flatMap made) (moves.flatMap removed) w := by
  refine run.keeps (P := fun moves w => ∃ shown : List Nat,
    moves.flatMap published = shown.map (folder outDir) ∧ w.compiler.outDir = outDir ∧
      Kept shown (moves.flatMap made) (moves.flatMap removed) w)
    ⟨[], rfl, rfl, .opened program ppi outDir entries⟩ fun {moves w act w'} earlier step => ?_
  obtain ⟨shown, listed, inside, kept⟩ := earlier
  obtain ⟨new, newly, outDir, kept⟩ := kept.step step
  refine ⟨shown ++ new, ?_, outDir.trans inside, ?_⟩
  · rw [List.flatMap_append, List.flatMap_singleton, listed, newly, inside, List.map_append]
  · simpa only [List.flatMap_append, List.flatMap_singleton] using kept

end BusyCompiler

end LivePreview.Compiler
