import LivePreview.Proofs.Compiler.BusyCompiler

/-!
# Compiles in vain

A compile that fails or is overtaken changes nothing of what is served, neither in the
step in which that turns out nor before or after (`served_of_vain`).  Only the step in
which the page files were listed can change something; after it a compile has nothing
left to do but to have a directory removed.
-/

namespace LivePreview.Compiler

open Preview (Progress)

def served (c : Compiler) : List Path × Option Path × Option Path :=
  (c.pages, c.published, c.retired)

theorem Begins.served {c : Compiler} {operation : Operation} {step : Step operation}
    (begins : Begins c step) : step.1.served = c.served := by
  cases begins <;> rfl

theorem resume_discarding_served (c : Compiler) (dir : Path) (lines : List Console.LogLine)
    (result : Except Failure (List Diagnostic)) (reply : Except SystemError Unit) :
    (c.resume (.discarding dir lines result) reply).1.served = c.served := by
  cases reply <;> rfl

namespace Stage.Advances

variable {c : Compiler} {stage : Stage .compile} {reply : (stage.request c).Reply}
  {step : Step .compile}

/-- A compile changes what is served if it is the latest, and then it succeeds. -/
theorem of_served_ne (advances : Advances c stage reply step)
    (changes : step.1.served ≠ c.served) :
    ∃ draft diagnostics, stage = .collecting draft diagnostics ∧
      c.generation = draft.generation ∧ (step.2 = .ended (.ok diagnostics) ∨
        ∃ dir, step.2 = .waits (.discarding dir [] (.ok diagnostics))) := by
  cases advances with
  | @published lines draft names progress diagnostics latest undrafted empty removing settled =>
    exact ⟨draft, diagnostics, rfl, latest, settled⟩
  | forgot selects => cases stage <;> cases selects
  | _ => exact absurd rfl changes

theorem of_late {draft : Draft} {diagnostics : List Diagnostic}
    {reply : Except SystemError (List String)}
    (advances : Advances c (.collecting draft diagnostics) reply step)
    (late : c.generation ≠ draft.generation) :
    ∃ dir lines result, step.2 = .waits (.discarding dir lines result) := by
  cases advances with
  | idles undrafted => cases undrafted
  | failed drafts hand lines f => exact ⟨_, lines, _, rfl⟩
  | overtaken => exact ⟨_, _, _, rfl⟩
  | published diagnostics latest => exact absurd latest late
  | forgot selects => cases selects

end Stage.Advances

namespace BusyCompiler

def Act.compile? : Act → Option Nat
  | .begins number .compile _ => some number
  | .advances number .compile _ _ _ _ => some number
  | _ => none

/-- A compile turns out to be in vain: it fails, or something newer has begun when its
    page files are listed. -/
inductive Vain (number : Nat) : Move BusyCompiler Act → Prop
  | refused {w w' : BusyCompiler} {f : Failure} :
      Vain number ⟨w, .begins number .compile (.ended (.error f)), w'⟩
  | failed {w w' : BusyCompiler} {stage : Stage .compile} {request : Host.Request}
      {reply : request.Reply} {f : Failure} :
      Vain number ⟨w, .advances number .compile stage request reply (.ended (.error f)), w'⟩
  | overtaken {w w' : BusyCompiler} {draft : Draft} {diagnostics : List Diagnostic}
      {request : Host.Request} {reply : request.Reply}
      {progress : Progress (Stage .compile) (Except Failure (List Diagnostic))}
      (late : w.compiler.generation ≠ draft.generation) :
      Vain number ⟨w, .advances number .compile (.collecting draft diagnostics) request reply
        progress, w'⟩

def Changes (number : Nat) (move : Move BusyCompiler Act) : Prop :=
  number ∈ move.act.compile? ∧ move.after.compiler.served ≠ move.before.compiler.served

theorem Vain.compile? {number : Nat} {move : Move BusyCompiler Act} (vain : Vain number move) :
    number ∈ move.act.compile? := by
  cases vain <;> rfl

/-- The tasks have numbers of their own. -/
structure Numbered (w : BusyCompiler) : Prop where
  distinct : (w.tasks.map Task.number).Nodup
  begun : ∀ task ∈ w.tasks, task.number < w.begun

theorem Numbered.step {w w' : BusyCompiler} {act : Act} (numbered : Numbered w)
    (step : Step w act w') : Numbered w' := by
  cases step with
  | begins call =>
    refine ⟨?_, fun task mem => ?_⟩
    · rw [List.map_append, List.nodup_append]
      refine ⟨numbered.distinct, (Task.next_numbers ..).nodup (List.nodup_singleton _), ?_⟩
      rintro number old _ new rfl
      obtain ⟨task, waits, rfl⟩ := List.mem_map.mp old
      have begun := numbered.begun task waits
      have new := List.mem_singleton.mp ((Task.next_numbers ..).subset new)
      omega
    · rcases List.mem_append.mp mem with old | new
      · exact Nat.lt_succ_of_lt (numbered.begun task old)
      · obtain ⟨stage, continues, rfl⟩ := List.mem_map.mp new
        exact Nat.lt_succ_self _
  | @advances before after number operation stage waits reply finds =>
    have distinct := numbered.distinct
    rw [waits] at distinct
    refine ⟨distinct.sublist ?_, fun task mem => ?_⟩
    · rw [List.append_assoc, List.map_append, List.map_append, List.map_append]
      exact (List.Sublist.refl _).append ((Task.next_numbers ..).append (List.Sublist.refl _))
    · rcases Task.old_or_next waits mem with old | ⟨next, continues, rfl⟩
      · exact numbered.begun task old
      · exact numbered.begun ⟨number, operation, stage⟩ (waits ▸ List.mem_append_cons_self)
  | drifts settles => exact ⟨numbered.distinct, numbered.begun⟩

theorem numbered_of_run {program outDir : Path} {ppi : Nat} {entries : Entries}
    {moves : List (Move BusyCompiler Act)} {w : BusyCompiler}
    (run : Run Step (.opened program ppi outDir entries) moves w) : Numbered w :=
  run.keeps (P := fun _ w => Numbered w) ⟨List.nodup_nil, fun _ mem => nomatch mem⟩ Numbered.step

/-- Where a compile stands after a run. -/
inductive Verdict (number : Nat) (moves : List (Move BusyCompiler Act)) (w : BusyCompiler) : Prop
  | pending (quiet : ∀ move ∈ moves, ¬ Vain number move ∧ ¬ Changes number move)
  | vain (begun : number < w.begun) (unchanged : ∀ move ∈ moves, ¬ Changes number move)
      (last : ∀ stage, ⟨number, .compile, stage⟩ ∈ w.tasks →
        ∃ dir lines result, stage = .discarding dir lines result)
  | useful (begun : number < w.begun) (never : ∀ move ∈ moves, ¬ Vain number move)
      (last : ∀ stage, ⟨number, .compile, stage⟩ ∈ w.tasks →
        ∃ dir lines diagnostics, stage = .discarding dir lines (.ok diagnostics))

/-- The task of a compile after a step of it is the one that the step left. -/
theorem Numbered.continues {w : BusyCompiler} {before after : List Task} {number : Nat}
    {stage next : Stage .compile}
    {progress : Progress (Stage .compile) (Except Failure (List Diagnostic))}
    (numbered : Numbered w) (waits : w.tasks = before ++ ⟨number, .compile, stage⟩ :: after)
    (mem : ⟨number, .compile, next⟩ ∈ before ++ Task.next number progress ++ after) :
    progress = .waits next := by
  have distinct := numbered.distinct
  rw [waits, List.map_append, List.map_cons, List.nodup_middle, List.nodup_cons] at distinct
  have elsewhere : (⟨number, .compile, next⟩ : Task) ∉ before ++ after := fun other =>
    distinct.1 (List.map_append ▸ List.mem_map.mpr ⟨_, other, rfl⟩)
  have new := (beside_or_next mem).resolve_left elsewhere
  cases progress with
  | waits stage' =>
    cases List.mem_singleton.mp new
    rfl
  | ended result => cases new

theorem Step.begun_le {w w' : BusyCompiler} {act : Act} (step : Step w act w') :
    w.begun ≤ w'.begun := by
  cases step with
  | begins call => exact Nat.le_succ _
  | advances => exact Nat.le_refl _
  | drifts => exact Nat.le_refl _

/-- A compile waits as before if a step is not one of its own. -/
theorem Step.old_of_mem {w w' : BusyCompiler} {act : Act} (step : Step w act w') {number : Nat}
    (other : number ∉ act.compile?) {stage : Stage .compile}
    (mem : ⟨number, .compile, stage⟩ ∈ w'.tasks) : ⟨number, .compile, stage⟩ ∈ w.tasks := by
  cases step with
  | begins call =>
    rcases List.mem_append.mp mem with old | new
    · exact old
    · obtain ⟨next, continues, same⟩ := List.mem_map.mp new
      cases call <;> cases same
      exact absurd rfl other
  | @advances before after number' operation stage' waits reply finds =>
    rcases Task.old_or_next waits mem with old | ⟨next, continues, same⟩
    · exact old
    · cases same
      exact absurd rfl other
  | drifts settles => exact mem

namespace Verdict

variable {number : Nat} {moves : List (Move BusyCompiler Act)} {w w' : BusyCompiler} {act : Act}

/-- What is not a step of a compile means nothing to it. -/
theorem beside (verdict : Verdict number moves w) (step : Step w act w')
    (other : number ∉ act.compile?) : Verdict number (moves ++ [⟨w, act, w'⟩]) w' := by
  have changesNot : ¬ Changes number ⟨w, act, w'⟩ := fun changes => other changes.1
  have vainNot : ¬ Vain number ⟨w, act, w'⟩ := fun vain => other vain.compile?
  cases verdict with
  | pending quiet =>
    refine .pending (List.forall_mem_append.mpr ⟨quiet, ?_⟩)
    exact List.forall_mem_singleton.mpr ⟨vainNot, changesNot⟩
  | vain begun unchanged last =>
    refine .vain (Nat.lt_of_lt_of_le begun step.begun_le) ?_ fun stage mem => ?_
    · exact List.forall_mem_append.mpr ⟨unchanged, List.forall_mem_singleton.mpr changesNot⟩
    · exact last stage (step.old_of_mem other mem)
  | useful begun never last =>
    refine .useful (Nat.lt_of_lt_of_le begun step.begun_le) ?_ fun stage mem => ?_
    · exact List.forall_mem_append.mpr ⟨never, List.forall_mem_singleton.mpr vainNot⟩
    · exact last stage (step.old_of_mem other mem)

/-- A verdict on a compile that has been pending is given in a step of its own. -/
theorem given (quiet : ∀ move ∈ moves, ¬ Vain number move ∧ ¬ Changes number move)
    (begun : number < w'.begun)
    (vain : Vain number ⟨w, act, w'⟩ → ¬ Changes number ⟨w, act, w'⟩ ∧
      ∀ stage, ⟨number, .compile, stage⟩ ∈ w'.tasks →
        ∃ dir lines result, stage = .discarding dir lines result)
    (changes : Changes number ⟨w, act, w'⟩ →
      ∀ stage, ⟨number, .compile, stage⟩ ∈ w'.tasks →
        ∃ dir lines diagnostics, stage = .discarding dir lines (.ok diagnostics)) :
    Verdict number (moves ++ [⟨w, act, w'⟩]) w' := by
  by_cases failing : Vain number ⟨w, act, w'⟩
  · obtain ⟨unchanged, last⟩ := vain failing
    refine .vain begun (List.forall_mem_append.mpr ⟨fun move mem => (quiet move mem).2, ?_⟩) last
    exact List.forall_mem_singleton.mpr unchanged
  · by_cases changing : Changes number ⟨w, act, w'⟩
    · refine .useful begun ?_ (changes changing)
      exact List.forall_mem_append.mpr
        ⟨fun move mem => (quiet move mem).1, List.forall_mem_singleton.mpr failing⟩
    · refine .pending (List.forall_mem_append.mpr ⟨quiet, ?_⟩)
      exact List.forall_mem_singleton.mpr ⟨failing, changing⟩

theorem begins (numbered : Numbered w) (verdict : Verdict w.begun moves w)
    {step : Compiler.Step .compile} (begins : Begins w.compiler step)
    (tasks : w'.tasks = w.tasks ++ Task.next w.begun step.2) (compiler : w'.compiler = step.1)
    (begun : w'.begun = w.begun + 1) :
    Verdict w.begun (moves ++ [⟨w, .begins w.begun .compile step.2, w'⟩]) w' := by
  have changesNot : ∀ act, ¬ Changes w.begun ⟨w, act, w'⟩ := fun act changes =>
    changes.2 (compiler ▸ begins.served)
  obtain ⟨c', progress⟩ := step
  dsimp only at tasks
  -- a verdict that was given before would be about a number that is not given out yet
  cases verdict with
  | pending quiet =>
    refine given quiet (begun ▸ Nat.lt_succ_self _) (fun vain => ⟨changesNot _, ?_⟩)
      (fun changes => absurd changes (changesNot _))
    intro stage mem
    cases vain
    rw [tasks] at mem
    rcases List.mem_append.mp mem with old | new
    · exact absurd (numbered.begun _ old) (Nat.lt_irrefl _)
    · cases new
  | vain before => exact absurd before (Nat.lt_irrefl _)
  | useful before => exact absurd before (Nat.lt_irrefl _)

theorem advances (numbered : Numbered w) (verdict : Verdict number moves w)
    {before after : List Task} {stage : Stage .compile}
    (waits : w.tasks = before ++ ⟨number, .compile, stage⟩ :: after)
    {reply : (stage.request w.compiler).Reply}
    (tasks : w'.tasks = before ++ Task.next number (w.compiler.resume stage reply).2 ++ after)
    (compiler : w'.compiler = (w.compiler.resume stage reply).1) (begun : w'.begun = w.begun) :
    Verdict number (moves ++
      [⟨w, .advances number .compile stage _ reply (w.compiler.resume stage reply).2, w'⟩]) w' := by
  have waiting : (⟨number, .compile, stage⟩ : Task) ∈ w.tasks :=
    waits ▸ List.mem_append_cons_self
  have left : ∀ next, ⟨number, .compile, next⟩ ∈ w'.tasks →
      (w.compiler.resume stage reply).2 = .waits next := fun next mem =>
    numbered.continues waits (tasks ▸ mem)
  have before : number < w'.begun := begun ▸ numbered.begun _ waiting
  cases verdict with
  | pending quiet =>
    have advances := w.compiler.resume_advances stage reply
    revert compiler left advances
    generalize w.compiler.resume stage reply = step
    obtain ⟨c', progress⟩ := step
    intro compiler left advances
    refine given quiet before (fun vain => ⟨fun changes => ?_, fun next mem => ?_⟩)
      fun changes next mem => ?_
    · obtain ⟨draft, diagnostics, rfl, latest, settled⟩ :=
        advances.of_served_ne (compiler ▸ changes.2)
      cases vain with
      | failed => rcases settled with settled | ⟨dir, settled⟩ <;> cases settled
      | overtaken late => exact late latest
    · obtain rfl : progress = .waits next := left next mem
      cases vain with
      | overtaken late =>
        obtain ⟨dir, lines, result, goesOn⟩ := advances.of_late late
        cases goesOn
        exact ⟨dir, lines, result, rfl⟩
    · obtain rfl : progress = .waits next := left next mem
      obtain ⟨draft, diagnostics, rfl, latest, settled⟩ :=
        advances.of_served_ne (compiler ▸ changes.2)
      rcases settled with settled | ⟨dir, settled⟩
      · cases settled
      · cases settled
        exact ⟨dir, [], diagnostics, rfl⟩
  | vain begun' unchanged last =>
    obtain ⟨dir, lines, result, rfl⟩ := last stage waiting
    refine .vain before (List.forall_mem_append.mpr ⟨unchanged, ?_⟩) fun next mem => ?_
    · rw [List.forall_mem_singleton]
      exact fun changes => changes.2 (compiler ▸ resume_discarding_served ..)
    · cases left next mem
  | useful begun' never last =>
    obtain ⟨dir, lines, diagnostics, rfl⟩ := last stage waiting
    refine .useful before (List.forall_mem_append.mpr ⟨never, ?_⟩) fun next mem => ?_
    · rw [List.forall_mem_singleton]
      exact fun vain => nomatch vain
    · cases left next mem

theorem step (numbered : Numbered w) (verdict : Verdict number moves w)
    (step : Step w act w') : Verdict number (moves ++ [⟨w, act, w'⟩]) w' := by
  by_cases other : number ∉ act.compile?
  · exact verdict.beside step other
  · have mine := Decidable.not_not.mp other
    clear other
    cases step with
    | begins call =>
      cases call with
      | compile =>
        cases mine
        exact verdict.begins numbered (w.compiler.call_begins .compile) rfl rfl rfl
      | _ => cases mine
    | @advances before after number operation stage waits reply finds =>
      cases operation with
      | compile =>
        cases mine
        exact verdict.advances numbered waits rfl rfl rfl
      | _ => cases mine
    | drifts => cases mine

end Verdict

/-- A compile in vain changes nothing of what is served. -/
theorem served_of_vain {program outDir : Path} {ppi : Nat} {entries : Entries}
    {moves : List (Move BusyCompiler Act)} {w : BusyCompiler}
    (run : Run Step (.opened program ppi outDir entries) moves w) {number : Nat}
    {move : Move BusyCompiler Act} (mem : move ∈ moves) (vain : Vain number move)
    {other : Move BusyCompiler Act} (known : other ∈ moves) (mine : number ∈ other.act.compile?) :
    other.after.compiler.served = other.before.compiler.served := by
  have verdict : Verdict number moves w :=
    run.keepsAlong (.pending fun _ mem => nomatch mem) fun earlier verdict step =>
      verdict.step (numbered_of_run earlier) step
  cases verdict with
  | pending quiet => exact absurd vain (quiet move mem).1
  | vain begun unchanged last =>
    by_contra changed
    exact unchanged other known ⟨mine, changed⟩
  | useful begun never last => exact absurd vain (never move mem)

end BusyCompiler

end LivePreview.Compiler
