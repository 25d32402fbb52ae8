import LivePreview.Proofs.Compiler.Publication
import LivePreview.Proofs.Compiler.Reading
import Mathlib.Data.List.Flatten

/-!
# Reads of one generation

`CompilerWithFiles` is a compiler at work with the contents of the files that there are.  A
directory is filled while the program draws into it, and emptied while it is removed;
apart from that its files stay as they are, and a read finds what is in a file.

A generation that is published is never drawn again.  What a page read finds is
therefore as it was when the read began (`unaltered`), and an answer to a full read
has the pages of one generation.  The directory itself is still there as long as it is
published or retired: a read outlasts one publication (`mem_keptDirs`).
-/

namespace LivePreview.Compiler

open Preview (Progress)

/-! ## What there is to be read -/

theorem mem_pageFiles {dir file : Path} {names : List String} (mem : file ∈ pageFiles dir names) :
    ∃ name ∈ names, file = dir.child name := by
  simp only [pageFiles, List.mem_map, List.mem_mergeSort, List.mem_filterMap,
    Option.map_eq_some_iff] at mem
  obtain ⟨_, ⟨name, known, _, _, rfl⟩, rfl⟩ := mem
  exact ⟨name, known, rfl⟩

/-- A page file is in the published directory. -/
theorem Serves.page {entries : Entries} {c : Compiler} (serves : Serves entries c) {file : Path}
    (mem : file ∈ c.pages) :
    ∃ dir ∈ c.published, entries file ∧ ∃ name, '/' ∉ name.toList ∧ file = dir.child name := by
  cases published : c.published with
  | none =>
    rw [(serves.empty published).1] at mem
    cases mem
  | some dir =>
    obtain ⟨names, lists, pages⟩ := serves.listed dir published
    obtain ⟨name, known, rfl⟩ := mem_pageFiles (pages ▸ mem)
    obtain ⟨plain, there⟩ := (lists.mem_iff name).mp known
    exact ⟨dir, rfl, there, name, plain, rfl⟩

theorem Stage.drawing_subset {operation : Operation} (stage : Stage operation) :
    stage.drawing ⊆ stage.drafts.map Draft.dir := by
  cases stage <;> simp [drawing, drafts]

/-- The two directories that are served from stay, or the published one is retired when
    another one is published. -/
theorem BusyCompiler.Kept.stays_or_retires {shown : List Nat} {made removed : List Path}
    {w w' : BusyCompiler} {act : BusyCompiler.Act} (kept : Kept shown made removed w)
    (step : BusyCompiler.Step w act w') (still : ¬ Forgets ⟨w, act, w'⟩) :
    (BusyCompiler.published ⟨w, act, w'⟩ = [] ∧ w'.compiler.published = w.compiler.published ∧
        w'.compiler.retired = w.compiler.retired) ∨
      (BusyCompiler.published ⟨w, act, w'⟩).length = 1 ∧
        w'.compiler.retired = w.compiler.published := by
  have unchanged : ∀ {c : Compiler}, c.served = w.compiler.served →
      newlyPublished w.compiler c = [] ∧ c.published = w.compiler.published ∧
        c.retired = w.compiler.retired := by
    intro c same
    obtain ⟨-, published, retired⟩ : _ ∧ c.published = w.compiler.published ∧ _ := by
      simpa [served] using same
    exact ⟨newlyPublished_of_eq published, published, retired⟩
  cases step with
  | begins call => exact .inl (unchanged (w.compiler.call_begins call).served)
  | drifts settles => exact .inl (unchanged rfl)
  | @advances before after number operation stage waits reply finds =>
    by_cases selects : stage.Selects
    · rcases resume_selects selects reply with ⟨same, -⟩ | ⟨-, succeeds⟩
      · exact .inl (unchanged (congrArg served same))
      · exact absurd ⟨selects, succeeds⟩ still
    · have waiting : (⟨number, operation, stage⟩ : Task) ∈ w.tasks :=
        waits ▸ List.mem_append_cons_self
      have advances := w.compiler.resume_advances stage reply
      show (newlyPublished w.compiler (w.compiler.resume stage reply).1 = [] ∧ _) ∨
        (newlyPublished w.compiler (w.compiler.resume stage reply).1).length = 1 ∧ _
      dsimp only
      revert advances
      generalize w.compiler.resume stage reply = result
      intro advances
      cases advances with
      | @published lines draft names progress diagnostics latest =>
        have other := kept.ranked.not_published waiting (List.mem_singleton_self draft)
        exact .inr ⟨congrArg List.length (newlyPublished_of_ne other), rfl⟩
      | forgot selected => exact absurd selected selects
      | _ => exact .inl (unchanged rfl)

/-! ## What calls read -/

/-- A read tells what is in the file, and a file that is there is found. -/
def Reads (files : Files) : (request : Host.Request) → request.Reply → Prop
  | .read file, .ok data => files file = some data
  | .read file, .error e => e = .notFound → files file = none
  | _, _ => True

theorem Reads.found {files files' : Files} {request : Host.Request} {reply : request.Reply}
    (reads : Reads files request reply)
    (same : ∀ file data, request = .read file → files file = some data → files' file = some data) :
    Found files' request reply := by
  cases request with
  | read file =>
    cases reply with
    | error e => trivial
    | ok data => exact same file data rfl reads
  | _ => trivial

namespace BusyCompiler

/-- What a full read answers in a step, with the number of its call. -/
def Act.answers : Act → List (Nat × List Page)
  | .begins number call progress => (allPages? call.operation progress).toList.map (number, ·)
  | .advances number operation _ _ _ progress =>
    (allPages? operation progress).toList.map (number, ·)
  | .drifts => []

/-- A file that is asked for and not found in a step, with the number of the call. -/
def Act.misses : Act → List (Nat × Path)
  | .advances number _ _ (.read file) (.error .notFound) _ => [(number, file)]
  | _ => []

def Act.Reads (files : Files) : Act → Prop
  | .advances _ _ _ request reply _ => Compiler.Reads files request reply
  | _ => True

theorem of_answers {number other : Nat} {operation : Operation} {pages : List Page}
    {progress : Progress (Stage operation) (Except Failure operation.Answer)}
    (answers : (number, pages) ∈ (allPages? operation progress).toList.map (other, ·)) :
    number = other ∧ pages ∈ allPages? operation progress := by
  obtain ⟨answered, known, pair⟩ := List.mem_map.mp answers
  obtain ⟨rfl, rfl⟩ := Prod.mk.inj pair
  exact ⟨rfl, Option.mem_toList.mp known⟩

theorem Act.of_misses {number other : Nat} {operation : Operation} {stage : Stage operation}
    {request : Host.Request} {reply : request.Reply} {files : Files} {file : Path}
    {progress : Progress (Stage operation) (Except Failure operation.Answer)}
    (misses : (number, file) ∈ Act.misses (.advances other operation stage request reply progress))
    (reads : Compiler.Reads files request reply) :
    number = other ∧ request = .read file ∧ files file = none := by
  cases request with
  | read asked =>
    cases reply with
    | ok data => cases misses
    | error e =>
      cases e with
      | notFound =>
        obtain ⟨rfl, rfl⟩ := Prod.mk.inj (List.mem_singleton.mp misses)
        exact ⟨rfl, rfl, reads rfl⟩
      | _ => cases misses
  | _ => cases misses

/-- A call that has captured files waits for one of them, or has ended. -/
def Gathers (number : Nat) (files : Files) (capture : List Path) (w : BusyCompiler) : Prop :=
  ∀ task ∈ w.tasks, task.number = number → task.stage.Gathers files capture

/-- Any full read that the call answers has the contents of all files it has captured. -/
def Act.Tells (number : Nat) (files : Files) (capture : List Path) (act : Act) : Prop :=
  ∀ pages, (number, pages) ∈ act.answers →
    ∃ contents, capture.map files = contents.map some ∧ pages = pagesOf contents

namespace Step

variable {w w' : BusyCompiler} {act : Act} {number : Nat} {files files' : Files}
  {capture : List Path}

theorem served_of_begins {call : Call}
    {progress : Progress (Stage call.operation) (Except Failure call.operation.Answer)}
    (step : Step w (.begins number call progress) w') :
    w'.compiler.served = w.compiler.served := by
  cases step
  exact (w.compiler.call_begins call).served

theorem gathers_of_begins {call : Call}
    {progress : Progress (Stage call.operation) (Except Failure call.operation.Answer)}
    (step : Step w (.begins number call progress) w') (numbered : Numbered w) (files : Files) :
    number < w'.begun ∧ w'.Gathers number files (captured w.compiler call) ∧
      Act.Tells number files (captured w.compiler call) (.begins number call progress) := by
  cases step
  have gathered : Gathered files _ _ := call_gathered w.compiler call
  refine ⟨Nat.lt_succ_self _, fun task mem mine => ?_, fun pages answers => ?_⟩
  · rcases List.mem_append.mp mem with old | new
    · exact absurd mine (Nat.ne_of_lt (numbered.begun task old))
    · obtain ⟨stage, continues, rfl⟩ := List.mem_map.mp new
      exact gathered.next stage continues
  · exact gathered.answer pages (of_answers answers).2

/-- As long as the captured files have what they had at first, the call goes on to gather
    them. -/
theorem gathers (step : Step w act w') (old : number < w.begun)
    (gathers : w.Gathers number files capture) (reads : act.Reads files')
    (same : ∀ file ∈ capture, ∀ data, files' file = some data → files file = some data) :
    w'.Gathers number files capture ∧ act.Tells number files capture := by
  cases step with
  | begins call =>
    refine ⟨fun task mem mine => ?_, fun pages answers => ?_⟩
    · rcases List.mem_append.mp mem with known | new
      · exact gathers task known mine
      · obtain ⟨stage, -, rfl⟩ := List.mem_map.mp new
        exact absurd mine (Nat.ne_of_gt old)
    · exact absurd (of_answers answers).1 (Nat.ne_of_lt old)
  | @advances before after other operation stage waits reply finds =>
    have waiting : (⟨other, operation, stage⟩ : Task) ∈ w.tasks :=
      waits ▸ List.mem_append_cons_self
    have gathered : other = number →
        Gathered files capture (w.compiler.resume stage reply).2 := by
      intro mine
      have gathers := gathers _ waiting mine
      have found := Reads.found reads fun file data asks => same file (gathers.asks asks) data
      exact gathers.resume found
    refine ⟨fun task mem mine => ?_, fun pages answers => ?_⟩
    · rcases Task.old_or_next waits mem with known | ⟨next, continues, rfl⟩
      · exact gathers task known mine
      · exact (gathered mine).next next continues
    · obtain ⟨mine, answered⟩ := of_answers answers
      exact (gathered mine.symm).answer pages answered
  | drifts settles => exact ⟨gathers, fun _ mem => nomatch mem⟩

/-- What is not found is a captured file that is not there. -/
theorem missed (step : Step w act w') (gathers : w.Gathers number files capture)
    (reads : act.Reads files') {file : Path} (misses : (number, file) ∈ act.misses) :
    file ∈ capture ∧ files' file = none := by
  cases step with
  | begins call => cases misses
  | @advances before after other operation stage waits reply finds =>
    obtain ⟨rfl, asks, gone⟩ := Act.of_misses misses reads
    have waiting : (⟨number, operation, stage⟩ : Task) ∈ w.tasks :=
      waits ▸ List.mem_append_cons_self
    exact ⟨(gathers _ waiting rfl).asks asks, gone⟩
  | drifts settles => cases misses

end Step

end BusyCompiler

/-- A compiler, the calls that wait, and the files that there are. -/
structure CompilerWithFiles where
  compiler : Compiler
  files : Files
  /-- How many calls have begun. -/
  begun : Nat
  tasks : List Task

namespace CompilerWithFiles

open BusyCompiler (Act)

/-- What is known of the files without reading them. -/
def busyCompiler (a : CompilerWithFiles) : BusyCompiler where
  compiler := a.compiler
  entries file := (a.files file).isSome
  begun := a.begun
  tasks := a.tasks

/-- Nothing has begun. -/
def opened (program : Path) (ppi : Nat) (outDir : Path) (files : Files) : CompilerWithFiles where
  compiler := .start program ppi outDir
  files
  begun := 0
  tasks := []

/-- In the directory of a generation that is not drawn into, files stay as they are, or
    are removed with it. -/
def Keeps (a : CompilerWithFiles) (files : Files) : Prop :=
  ∀ generation file, Beneath (folder a.compiler.outDir generation) file →
    folder a.compiler.outDir generation ∉ a.tasks.flatMap (fun task => task.stage.drawing) →
    files file = a.files file ∨ files file = none ∧
      folder a.compiler.outDir generation ∈ a.tasks.flatMap fun task => task.stage.removing

/-- One step of a call, or of the system. -/
structure Step (a : CompilerWithFiles) (act : Act) (a' : CompilerWithFiles) : Prop where
  busyCompiler : BusyCompiler.Step a.busyCompiler act a'.busyCompiler
  reads : act.Reads a.files
  keeps : a.Keeps a'.files

/-- The directory that is published in a move. -/
def published (move : Move CompilerWithFiles Act) : List Path :=
  newlyPublished move.before.compiler move.after.compiler

/-- Whether a selection forgets the pages in a move. -/
def Forgets (move : Move CompilerWithFiles Act) : Prop :=
  BusyCompiler.Forgets ⟨move.before.busyCompiler, move.act, move.after.busyCompiler⟩

variable {program outDir : Path} {ppi : Nat} {files : Files}

theorem kept_of_run {moves : List (Move CompilerWithFiles Act)} {a : CompilerWithFiles}
    (run : Run Step (.opened program ppi outDir files) moves a) :
    ∃ shown made removed, moves.flatMap published = shown.map (folder outDir) ∧
      a.compiler.outDir = outDir ∧ BusyCompiler.Kept shown made removed a.busyCompiler := by
  obtain ⟨shown, listed, inside, kept⟩ :=
    BusyCompiler.kept_of_run (run.map (f := busyCompiler) fun step => step.busyCompiler)
  refine ⟨shown, _, _, ?_, inside, kept⟩
  rw [← listed, List.flatMap_map]
  rfl

section Reads

variable {first during : List (Move CompilerWithFiles Act)} {u a : CompilerWithFiles}
  {dir file : Path}

/-- A generation that was published is not drawn again. -/
theorem not_drawing (run : Run Step (.opened program ppi outDir files) first a)
    (published : dir ∈ first.flatMap published) :
    dir ∉ a.tasks.flatMap fun task => task.stage.drawing := by
  obtain ⟨shown, made, removed, listed, inside, kept⟩ := kept_of_run run
  obtain ⟨number, known, rfl⟩ := List.mem_map.mp (listed ▸ published)
  intro drawing
  -- who draws has a draft, and the generation of a draft has not been shown
  obtain ⟨task, waits, draws⟩ := List.mem_flatMap.mp drawing
  obtain ⟨draft, held, here⟩ := List.mem_map.mp (task.stage.drawing_subset draws)
  have named := kept.ranked.named task waits draft held
  have same : number = draft.generation := folder_injective (here.symm.trans (inside ▸ named))
  exact kept.ranked.not_shown waits held (same ▸ known)

theorem folder_of_published (run : Run Step (.opened program ppi outDir files) first a)
    (published : dir ∈ first.flatMap published) : ∃ number, dir = folder outDir number := by
  obtain ⟨shown, made, removed, listed, inside, kept⟩ := kept_of_run run
  obtain ⟨number, -, rfl⟩ := List.mem_map.mp (listed ▸ published)
  exact ⟨number, rfl⟩

theorem mem_published (run : Run Step (.opened program ppi outDir files) first a)
    (published : dir ∈ a.compiler.published) : dir ∈ first.flatMap CompilerWithFiles.published := by
  obtain ⟨shown, made, removed, listed, inside, kept⟩ := kept_of_run run
  obtain ⟨number, known, rfl⟩ := kept.ranked.published dir published
  rw [listed]
  have outDir : a.busyCompiler.compiler.outDir = _ := inside
  exact List.mem_map.mpr ⟨number, known, by rw [outDir]⟩

theorem Step.published_of_begins {a a' : CompilerWithFiles} {number : Nat} {call : Call}
    {progress : Progress (Stage call.operation) (Except Failure call.operation.Answer)}
    (step : Step a (.begins number call progress) a') :
    CompilerWithFiles.published ⟨a, .begins number call progress, a'⟩ = [] := by
  have same : a'.busyCompiler.compiler.served = a.busyCompiler.compiler.served :=
    step.busyCompiler.served_of_begins
  exact newlyPublished_of_eq (congrArg (·.2.1) same)

/-- What is in a published directory stays as it is until it is removed. -/
theorem unaltered (earlier : Run Step (.opened program ppi outDir files) first u)
    (published : dir ∈ first.flatMap published) (beneath : Beneath dir file)
    (continued : Run Step u during a) : a.files file = u.files file ∨ a.files file = none := by
  refine continued.keepsAlong (P := fun _ a => a.files file = u.files file ∨ a.files file = none)
    (.inl rfl) fun {moves s act t} run same step => ?_
  have whole := earlier.append run
  have published : dir ∈ (first ++ moves).flatMap CompilerWithFiles.published := by
    rw [List.flatMap_append]
    exact List.mem_append_left _ published
  obtain ⟨number, rfl⟩ := folder_of_published whole published
  obtain ⟨shown, made, removed, listed, inside, kept⟩ := kept_of_run whole
  rw [← inside] at beneath published
  rcases step.keeps number file beneath (not_drawing whole published) with still | ⟨gone, -⟩
  · rw [still]
    exact same
  · exact .inr gone

/-- As long as no selection forgets the pages, the first publication retires what was
    published, and only the next one gives it to be removed. -/
theorem published_or_retired (earlier : Run Step (.opened program ppi outDir files) first u)
    (served : u.compiler.published = some dir) (continued : Run Step u during a)
    (few : (during.flatMap published).length ≤ 1) (still : ∀ move ∈ during, ¬ Forgets move) :
    during.flatMap published = [] ∧ a.compiler.published = some dir ∨
      (during.flatMap published).length = 1 ∧ a.compiler.retired = some dir := by
  revert few still
  refine continued.keepsAlong (P := fun during a => (during.flatMap published).length ≤ 1 →
    (∀ move ∈ during, ¬ Forgets move) →
      during.flatMap published = [] ∧ a.compiler.published = some dir ∨
        (during.flatMap published).length = 1 ∧ a.compiler.retired = some dir)
    (fun _ _ => .inl ⟨rfl, served⟩) fun {moves s act t} run inductionHypothesis step few still => ?_
  obtain ⟨shown, made, removed, -, -, kept⟩ := kept_of_run (earlier.append run)
  have turns := kept.stays_or_retires step.busyCompiler (still _ List.mem_concat_self)
  have before := inductionHypothesis
    (Nat.le_trans ((List.sublist_append_left moves _).flatMap published).length_le few)
    fun move mem => still move (List.mem_append_left _ mem)
  rw [List.flatMap_append, List.flatMap_singleton, List.length_append] at few
  rw [List.flatMap_append, List.flatMap_singleton, List.length_append]
  change (published ⟨s, act, t⟩ = [] ∧ t.compiler.published = s.compiler.published ∧
      t.compiler.retired = s.compiler.retired) ∨
    (published ⟨s, act, t⟩).length = 1 ∧ t.compiler.retired = s.compiler.published at turns
  rcases turns with ⟨nothing, same, same'⟩ | ⟨one, retires⟩
  · rw [nothing, List.append_nil, List.length_nil, Nat.add_zero, same, same']
    exact before
  · rcases before with ⟨none, served⟩ | ⟨already, -⟩
    · exact .inr ⟨by simp [none, one], retires.trans served⟩
    · omega

theorem mem_keptDirs (earlier : Run Step (.opened program ppi outDir files) first u)
    (served : u.compiler.published = some dir) (continued : Run Step u during a)
    (few : (during.flatMap published).length ≤ 1) (still : ∀ move ∈ during, ¬ Forgets move) :
    dir ∈ a.compiler.keptDirs := by
  rcases published_or_retired earlier served continued few still with ⟨-, here⟩ | ⟨-, here⟩
  · exact List.mem_append_left _ (Option.mem_toList.mpr here)
  · exact List.mem_append_right _ (Option.mem_toList.mpr here)

/-- What is in a directory that is served from is neither drawn nor removed. -/
theorem Step.same_of_kept {shown : List Nat} {made removed : List Path} {a' : CompilerWithFiles}
    {act : Act} (step : Step a act a') (kept : BusyCompiler.Kept shown made removed a.busyCompiler)
    {number : Nat} (served : folder a.compiler.outDir number ∈ a.compiler.keptDirs)
    (beneath : Beneath (folder a.compiler.outDir number) file) : a'.files file = a.files file := by
  have apart : ∀ task ∈ a.tasks,
      folder a.compiler.outDir number ∉ task.stage.drawing ++ task.stage.removing :=
    fun task waits changes =>
      kept.loose_apart (List.mem_flatMap.mpr ⟨task, waits, changes⟩) served
  have still : folder a.compiler.outDir number ∉
      a.tasks.flatMap fun task => task.stage.drawing := fun draws => by
    obtain ⟨task, waits, draws⟩ := List.mem_flatMap.mp draws
    exact apart task waits (List.mem_append_left _ draws)
  rcases step.keeps number file beneath still with same | ⟨-, removes⟩
  · exact same
  · obtain ⟨task, waits, removes⟩ := List.mem_flatMap.mp removes
    exact absurd (List.mem_append_right _ removes) (apart task waits)

/-- A file that is in a published directory is still there, unaltered, after one
    publication. -/
theorem present (earlier : Run Step (.opened program ppi outDir files) first u)
    (served : u.compiler.published = some dir) (beneath : Beneath dir file)
    (continued : Run Step u during a) (few : (during.flatMap published).length ≤ 1)
    (still : ∀ move ∈ during, ¬ Forgets move) : a.files file = u.files file := by
  revert few still
  refine continued.keepsAlong (P := fun during a => (during.flatMap published).length ≤ 1 →
    (∀ move ∈ during, ¬ Forgets move) → a.files file = u.files file)
    (fun _ _ => rfl) fun {moves s act t} run inductionHypothesis step few still => ?_
  have fewer : (moves.flatMap published).length ≤ 1 :=
    Nat.le_trans ((List.sublist_append_left moves _).flatMap published).length_le few
  have stills : ∀ move ∈ moves, ¬ Forgets move := fun move mem =>
    still move (List.mem_append_left _ mem)
  have whole := earlier.append run
  have here := mem_keptDirs earlier served run fewer stills
  obtain ⟨number, rfl⟩ := folder_of_published earlier (mem_published earlier served)
  obtain ⟨shown, made, removed, -, inside, kept⟩ := kept_of_run whole
  rw [← inside] at here beneath
  exact (step.same_of_kept kept here beneath).trans (inductionHypothesis fewer stills)

/-! ## A read from its begin on -/

variable {call : Call} {number : Nat} {v : CompilerWithFiles}
  {progress : Progress (Stage call.operation) (Except Failure call.operation.Answer)}

/-- A captured file is in the published directory, and was in it at first. -/
theorem page_of_captured (earlier : Run Step (.opened program ppi outDir files) first u)
    (mem : file ∈ captured u.compiler call) :
    ∃ dir, u.compiler.published = some dir ∧ Beneath dir file ∧ (u.files file).isSome := by
  obtain ⟨shown, made, removed, -, -, kept⟩ := kept_of_run earlier
  obtain ⟨dir, served, there, name, plain, rfl⟩ :=
    kept.serves.page (captured_subset_pages _ call mem)
  obtain ⟨number, -, rfl⟩ := kept.ranked.published dir served
  exact ⟨_, served, child_beneath plain, there⟩

/-- A page read goes on with the files that it captured, as they were then, and answers
    nothing else. -/
theorem gathers_of_run (earlier : Run Step (.opened program ppi outDir files) first u)
    (begins : Step u (.begins number call progress) v) (continued : Run Step v during a) :
    number < a.begun ∧ a.busyCompiler.Gathers number u.files (captured u.compiler call) ∧
      ∀ move ∈ (⟨u, .begins number call progress, v⟩ : Move CompilerWithFiles Act) :: during,
        move.act.Tells number u.files (captured u.compiler call) := by
  have numbered : BusyCompiler.Numbered u.busyCompiler :=
    BusyCompiler.numbered_of_run (earlier.map (f := busyCompiler) fun step => step.busyCompiler)
  obtain ⟨begun, gathers, tells⟩ := begins.busyCompiler.gathers_of_begins numbered u.files
  refine continued.keepsAlong (P := fun during a => number < a.begun ∧
    a.busyCompiler.Gathers number u.files (captured u.compiler call) ∧
      ∀ move ∈ (⟨u, .begins number call progress, v⟩ : Move CompilerWithFiles Act) :: during,
        move.act.Tells number u.files (captured u.compiler call))
    ⟨begun, gathers, List.forall_mem_singleton.mpr tells⟩ fun {moves s act t} run before step => ?_
  obtain ⟨begun, gathers, tells⟩ := before
  have same : ∀ file ∈ captured u.compiler call, ∀ data,
      s.files file = some data → u.files file = some data := by
    intro file mem data here
    obtain ⟨dir, served, beneath, -⟩ := page_of_captured earlier mem
    rcases unaltered earlier (mem_published earlier served) beneath
      ((Run.one begins).append run) with still | gone
    · exact still ▸ here
    · cases gone.symm.trans here
  obtain ⟨gathers, last⟩ := step.busyCompiler.gathers begun gathers step.reads same
  refine ⟨Nat.lt_of_lt_of_le begun step.busyCompiler.begun_le, gathers, ?_⟩
  rw [← List.cons_append]
  exact List.forall_mem_append.mpr ⟨tells, List.forall_mem_singleton.mpr last⟩

/-- As long as one generation at most is published and no selection forgets the pages,
    what was captured is there, and is found. -/
theorem found_of_run (earlier : Run Step (.opened program ppi outDir files) first u)
    (begins : Step u (.begins number call progress) v) (continued : Run Step v during a)
    (few : (during.flatMap published).length ≤ 1) (still : ∀ move ∈ during, ¬ Forgets move) :
    (∀ file ∈ captured u.compiler call, ∃ data,
      u.files file = some data ∧ a.files file = some data) ∧
    ∀ move ∈ during, ∀ file, (number, file) ∉ move.act.misses := by
  have there : ∀ {shorter : List (Move CompilerWithFiles Act)} {s : CompilerWithFiles},
      Run Step v shorter s → shorter.Sublist during → ∀ file ∈ captured u.compiler call, ∃ data,
        u.files file = some data ∧ s.files file = some data := by
    intro shorter s run part file mem
    obtain ⟨dir, served, beneath, there⟩ := page_of_captured earlier mem
    obtain ⟨data, here⟩ := Option.isSome_iff_exists.mp there
    refine ⟨data, here, ?_⟩
    rw [← here]
    refine present earlier served beneath ((Run.one begins).append run) ?_ ?_
    · rw [List.flatMap_append, List.flatMap_singleton, begins.published_of_begins, List.nil_append]
      exact Nat.le_trans (part.flatMap CompilerWithFiles.published).length_le few
    · rintro move mem
      rcases List.mem_append.mp mem with first | later
      · rw [List.mem_singleton.mp first]
        exact id
      · exact still move (part.subset later)
  refine ⟨there continued (.refl _), fun move mem file misses => ?_⟩
  obtain ⟨shorter, rest, cut⟩ := List.append_of_mem mem
  obtain ⟨run, step, -⟩ := continued.around cut
  obtain ⟨-, gathers, -⟩ := gathers_of_run earlier begins run
  obtain ⟨known, gone⟩ := step.busyCompiler.missed gathers step.reads misses
  obtain ⟨data, -, here⟩ := there run (cut ▸ List.sublist_append_left ..) file known
  cases gone.symm.trans here

end Reads

/-- All that is in the page files of a directory, in their order. -/
def PagesIn (files : Files) (dir : Path) (pages : List Page) : Prop :=
  ∃ names contents, Lists (fun file => (files file).isSome) dir names ∧
    (pageFiles dir names).map files = contents.map some ∧ pages = pagesOf contents

/-- Whatever else is under way, from the begin of a page read on: a full read that is
    answered has the pages of the generation that was published when it began, all of them
    in their order, or none if there was no generation.  As long as one generation at most
    is published and no selection forgets the pages, every file that the read has captured
    is there, as it was, and none is missed. -/
theorem reads_of_one_generation {first during : List (Move CompilerWithFiles Act)}
    {u v a : CompilerWithFiles} {number : Nat} {call : Call}
    {progress : Progress (Stage call.operation) (Except Failure call.operation.Answer)}
    (run : Run Step (.opened program ppi outDir files)
      (first ++ ⟨u, .begins number call progress, v⟩ :: during) a) :
    (call = .renderAllPages →
      ∀ move ∈ (⟨u, .begins number call progress, v⟩ : Move CompilerWithFiles Act) :: during,
        ∀ pages, (number, pages) ∈ move.act.answers →
          pages.map Page.index = List.range pages.length ∧
          (u.compiler.published = none → pages = []) ∧
          ∀ dir, u.compiler.published = some dir →
            dir ∈ first.flatMap published ∧ PagesIn u.files dir pages) ∧
    ((during.flatMap published).length ≤ 1 → (∀ move ∈ during, ¬ Forgets move) →
      (∀ file ∈ captured u.compiler call, ∃ data,
        u.files file = some data ∧ a.files file = some data) ∧
      ∀ move ∈ during, ∀ file, (number, file) ∉ move.act.misses) := by
  obtain ⟨earlier, begins, continued⟩ := run.around rfl
  refine ⟨?_, found_of_run earlier begins continued⟩
  rintro rfl move mem pages answers
  obtain ⟨-, -, tells⟩ := gathers_of_run earlier begins continued
  obtain ⟨contents, read, rfl⟩ := tells move mem pages answers
  obtain ⟨shown, made, removed, -, -, kept⟩ := kept_of_run earlier
  refine ⟨?_, fun unpublished => ?_, fun dir served => ?_⟩
  · rw [pagesOf_index, pagesOf_length]
  · have empty : u.compiler.pages = [] := (kept.serves.empty unpublished).1
    rw [captured, empty] at read
    rw [List.map_eq_nil_iff.mp read.symm]
    rfl
  · obtain ⟨names, lists, files⟩ := kept.serves.listed dir served
    exact ⟨mem_published earlier served, names, contents, lists, files ▸ read, rfl⟩

/-- A step of a call that leaves the files as they are. -/
theorem Step.of_busyCompiler {a : CompilerWithFiles} {act : Act} {w' : BusyCompiler}
    (step : BusyCompiler.Step a.busyCompiler act w') (same : w'.entries = a.busyCompiler.entries)
    (reads : act.Reads a.files) : Step a act ⟨w'.compiler, a.files, w'.begun, w'.tasks⟩ := by
  obtain ⟨c, entries, begun, tasks⟩ := w'
  obtain rfl := same
  exact ⟨step, reads, fun _ _ _ _ => .inl rfl⟩

/-- A page is drawn into the directory of a compile. -/
theorem Step.draws {a : CompilerWithFiles} (generation : Nat) (name : String) (data : ByteArray)
    (plain : '/' ∉ name.toList) (drawing : folder a.compiler.outDir generation ∈
      a.tasks.flatMap fun task => task.stage.drawing) :
    Step a .drifts { a with
      files := Function.update a.files ((folder a.compiler.outDir generation).child name)
        (some data) } := by
  have others : ∀ n file, Beneath (folder a.compiler.outDir n) file →
      folder a.compiler.outDir n ∉ a.tasks.flatMap (fun task => task.stage.drawing) →
      file ≠ (folder a.compiler.outDir generation).child name := by
    rintro n file beneath still rfl
    obtain rfl := generation_of_beneath beneath (child_beneath plain)
    exact still drawing
  refine ⟨.drifts fun n file beneath still => ?_, trivial, fun n file beneath still => ?_⟩
  · have undrawn : file ≠ _ := others n file beneath fun draws => still <| by
      obtain ⟨task, waits, draws⟩ := List.mem_flatMap.mp draws
      exact List.mem_flatMap.mpr ⟨task, waits, List.mem_append_left _ draws⟩
    exact iff_of_eq (congrArg (Option.isSome · = true) (Function.update_of_ne undrawn _ _))
  · exact .inl (Function.update_of_ne (others n file beneath still) _ _)

/-- A main document is selected and compiled, and its only page is published. -/
theorem one_page_published : ∃ moves u,
    Run Step (.opened ⟨"typst"⟩ 144 ⟨"/out"⟩ fun _ => none) moves u ∧ u.tasks = [] ∧
      u.compiler.pages = [(folder ⟨"/out"⟩ 2).child "page-1.png"] ∧
      u.compiler.published = some (folder ⟨"/out"⟩ 2) := by
  let main : Path := ⟨"/doc/main.typ"⟩
  let page : Path := (folder ⟨"/out"⟩ 2).child "page-1.png"
  let draft : Draft := ⟨⟨main.parent?.getD ⟨""⟩, main⟩, 2, folder ⟨"/out"⟩ 2⟩
  let silent : Host.Run := ⟨.exited 0, .empty⟩
  let diagnostics := (report draft.target silent).diagnostics
  let files : Files := Function.update (fun _ => none) page (some .empty)
  let c : Compiler :=
    { Compiler.start ⟨"typst"⟩ 144 ⟨"/out"⟩ with main := some main, generation := 2 }
  let c' := c.say (skippedLines draft.target (.ok silent))
  obtain ⟨moves, begun⟩ : ∃ moves, Run Step (.opened ⟨"typst"⟩ 144 ⟨"/out"⟩ fun _ => none) moves
      ⟨c, fun _ => none, 2, [⟨1, .compile, .preparing draft⟩]⟩ :=
    ⟨_, ((Run.nil.snoc (Step.of_busyCompiler (.begins
        (opened ⟨"typst"⟩ 144 ⟨"/out"⟩ fun _ => none).busyCompiler (.setMainDocument main))
          rfl trivial)).snoc (Step.of_busyCompiler
        (.alone (.openingMain main) (Except.ok .file) rfl trivial) rfl trivial)).snoc
      (Step.of_busyCompiler (.begins _ .compile) rfl trivial)⟩
  have draws : Step ⟨c, fun _ => none, 2, [⟨1, .compile, .compiling draft⟩]⟩ .drifts
      ⟨c, files, 2, [⟨1, .compile, .compiling draft⟩]⟩ :=
    .draws 2 "page-1.png" .empty (by decide) (List.mem_singleton_self (folder ⟨"/out"⟩ 2))
  obtain ⟨moves, drawn⟩ : ∃ moves, Run Step (.opened ⟨"typst"⟩ 144 ⟨"/out"⟩ fun _ => none) moves
      ⟨c', files, 2, [⟨1, .compile, .collecting draft diagnostics⟩]⟩ :=
    ⟨_, ((begun.snoc (Step.of_busyCompiler
        (.alone (.preparing draft) (Except.ok ()) rfl trivial) rfl trivial)).snoc draws).snoc
      (Step.of_busyCompiler (.alone (.compiling draft) (Except.ok silent) rfl trivial) rfl trivial)⟩
  have lists : Lists (fun file => (files file).isSome) draft.dir ["page-1.png"] := by
    have only : (fun file => ((files file).isSome : Prop)) =
        Entries.add (fun _ => False) draft.dir "page-1.png" := by
      funext file
      by_cases drawn : file = page <;> simp [files, Entries.add, page, draft, drawn]
    exact only ▸ (lists_nothing _).add (by decide) List.not_mem_nil
  obtain ⟨lines, published⟩ :=
    afterCollect_unretired (c := c') diagnostics ["page-1.png"]
      (show c'.generation = draft.generation from rfl) rfl
  have listed := BusyCompiler.Step.alone
    (w := CompilerWithFiles.busyCompiler ⟨c', files, 2, [⟨1, _, _⟩]⟩)
    (.collecting draft diagnostics) (Except.ok ["page-1.png"]) rfl lists
  refine ⟨_, _, drawn.snoc (Step.of_busyCompiler listed rfl trivial), ?_⟩
  simp only [resume, busyCompiler, published]
  exact ⟨rfl, by decide +kernel, rfl⟩

/-- The only page that is served is read. -/
theorem read_of_served {first : List (Move CompilerWithFiles Act)} {u : CompilerWithFiles}
    {page : Path} (run : Run Step (.opened program ppi outDir files) first u) (idle : u.tasks = [])
    (pages : u.compiler.pages = [page]) : ∃ progress v during a, Run Step
      (.opened program ppi outDir files)
        (first ++ ⟨u, .begins u.begun .renderAllPages progress, v⟩ :: during) a ∧
      during.flatMap published = [] ∧ (∀ move ∈ during, ¬ Forgets move) ∧
      ∃ data, ∃ move ∈ during, (u.begun, [readPage 0 data]) ∈ move.act.answers := by
  have call : u.compiler.call .renderAllPages =
      (u.compiler, .waits (.readingAll [] page [])) := by
    rw [Compiler.call, pages]
    rfl
  let v : CompilerWithFiles :=
    ⟨u.compiler, u.files, u.begun + 1, [⟨u.begun, _, .readingAll [] page []⟩]⟩
  have begins : Step u (.begins u.begun .renderAllPages (.waits (.readingAll [] page []))) v := by
    have begins := Step.of_busyCompiler (.begins u.busyCompiler .renderAllPages) rfl trivial
    simpa [v, busyCompiler, call, idle, Task.next] using begins
  have captures : page ∈ captured u.compiler .renderAllPages := by
    rw [captured, pages]
    exact List.mem_singleton_self page
  obtain ⟨-, -, -, there⟩ := page_of_captured run captures
  obtain ⟨data, here⟩ := Option.isSome_iff_exists.mp there
  have read := Step.of_busyCompiler (a := v)
    (.alone (.readingAll [] page []) (Except.ok data) rfl trivial) rfl here
  refine ⟨_, v, _, _, run.append ((Run.one begins).snoc read), ?_, ?_, data, _,
    List.mem_singleton_self _, List.mem_singleton_self _⟩
  · exact (List.append_nil _).trans (newlyPublished_of_eq rfl)
  · exact List.forall_mem_singleton.mpr fun forgets => forgets.1

/-- A page is drawn, published, and read. -/
theorem published_page_read : ∃ first u progress v during a,
    Run Step (.opened ⟨"typst"⟩ 144 ⟨"/out"⟩ fun _ => none)
      (first ++ ⟨u, .begins u.begun .renderAllPages progress, v⟩ :: during) a ∧
    ∃ pages, (∃ move ∈ during, (u.begun, pages) ∈ move.act.answers) ∧
      pages.map Page.index = [0] ∧ folder ⟨"/out"⟩ 2 ∈ first.flatMap published ∧
      PagesIn u.files (folder ⟨"/out"⟩ 2) pages ∧
      (∃ data, u.files ((folder ⟨"/out"⟩ 2).child "page-1.png") = some data ∧
        a.files ((folder ⟨"/out"⟩ 2).child "page-1.png") = some data) ∧
      ∀ move ∈ during, ∀ file, (u.begun, file) ∉ move.act.misses := by
  obtain ⟨first, u, run, idle, pages, served⟩ := one_page_published
  obtain ⟨progress, v, during, a, read, quiet, still, data, move, mem, answers⟩ :=
    read_of_served run idle pages
  obtain ⟨whole, found⟩ := reads_of_one_generation read
  obtain ⟨indices, -, generation⟩ := whole rfl move (List.mem_cons_of_mem _ mem) _ answers
  obtain ⟨published, contents⟩ := generation _ served
  obtain ⟨there, missed⟩ := found (by rw [quiet]; exact Nat.zero_le _) still
  refine ⟨first, u, progress, v, during, a, read, _, ⟨move, mem, answers⟩, rfl, published,
    contents, there _ ?_, missed⟩
  rw [captured, pages]
  exact List.mem_singleton_self _

end CompilerWithFiles

end LivePreview.Compiler
