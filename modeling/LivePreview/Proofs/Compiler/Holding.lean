import LivePreview.Compiler.Stage
import LivePreview.Proofs.Compiler.Folder
import LivePreview.Proofs.Preview.BusyEngine

/-!
# Directories in hand

A call has directories in hand: the one it compiles into, or those that a selection
made stale.  `Stage.Advances` lists what a step can do with them and with the ones
that are served; everything else about a step follows from it.  No step drops a
directory that was made, hands out one that it did not have, or gives one to two
holders.
-/

namespace LivePreview

open Preview (Progress)

/-- The directories that a request removes. -/
def Host.Request.removes : Host.Request → List Path
  | .removeTree dir => [dir]
  | _ => []

/-- The directories that are there because of a request. -/
def Host.Request.makes : (request : Host.Request) → request.Reply → List Path
  | .makeDirectories dir, .ok _ => [dir]
  | _, _ => []

namespace Compiler

/-- The directories that are served from: the published and the retired one. -/
def keptDirs (c : Compiler) : List Path :=
  c.published.toList ++ c.retired.toList

namespace Stage

variable {operation : Operation}

def drafts : Stage operation → List Draft
  | .preparing draft => [draft]
  | .compiling draft => [draft]
  | .collecting draft _ => [draft]
  | _ => []

def awaited : Stage operation → List Path
  | .preparing draft => [draft.dir]
  | _ => []

/-- The directories in hand, that are neither served nor given to be removed. -/
def dirs : Stage operation → List Path
  | .compiling draft => [draft.dir]
  | .collecting draft _ => [draft.dir]
  | .leavingRoot _ _ rest => rest
  | .leavingMain _ _ rest => rest
  | _ => []

/-- All directories of a call that are not being removed. -/
def places (stage : Stage operation) : List Path :=
  stage.awaited ++ stage.dirs

def removing : Stage operation → List Path
  | .discarding dir _ _ => [dir]
  | .leavingRoot _ dir _ => [dir]
  | .leavingMain _ dir _ => [dir]
  | _ => []

def drawing : Stage operation → List Path
  | .compiling draft => [draft.dir]
  | _ => []

theorem request_removes (c : Compiler) (stage : Stage operation) :
    (stage.request c).removes = stage.removing := by
  cases stage <;> rfl

/-- Whether a call has seen what it selects, and is about to forget the pages. -/
def Selects : {operation : Operation} → Stage operation → Prop
  | _, .openingRoot _ => True
  | _, .openingMain _ => True
  | _, _ => False

/-- `Advances c stage reply step`: with the compiler at `c`, the reply takes a call from
    `stage` to where `step` leaves it. -/
inductive Advances (c : Compiler) :
    {operation : Operation} → (stage : Stage operation) → (stage.request c).Reply →
      Step operation → Prop
  /-- Nothing changes hands, but for the next directory to be removed. -/
  | idles {operation : Operation} {stage : Stage operation} {reply : (stage.request c).Reply}
      {progress : Progress (Stage operation) (Except Failure operation.Answer)}
      {root main : Option Path} {lines : List Console.LogLine}
      (undrafted : stage.drafts = []) (drafts : progress.next.flatMap drafts = [])
      (dirs : progress.next.flatMap removing ++ progress.next.flatMap dirs = stage.dirs) :
      Advances c stage reply ({ c with root, main, lines }, progress)
  | refused (draft : Draft) (e : SystemError) :
      Advances c (.preparing draft) (.error e) (c, .ended (.error (.io draft.dir e)))
  | prepared (draft : Draft) :
      Advances c (.preparing draft) (.ok ()) (c, .waits (.compiling draft))
  | drawn {reply : Except SystemError Host.Run} {lines : List Console.LogLine} (draft : Draft)
      (diagnostics : List Diagnostic) :
      Advances c (.compiling draft) reply ({ c with lines }, .waits (.collecting draft diagnostics))
  /-- The directory of a compile that failed is given to be removed. -/
  | failed {stage : Stage .compile} {reply : (stage.request c).Reply} {draft : Draft}
      (drafts : stage.drafts = [draft]) (dirs : stage.dirs = [draft.dir])
      (lines : List Console.LogLine) (f : Failure) :
      Advances c stage reply (c, .waits (.discarding draft.dir lines (.error f)))
  /-- So is the directory of a compile that was overtaken. -/
  | overtaken {lines : List Console.LogLine} {names : List String} {draft : Draft}
      (diagnostics : List Diagnostic) (late : c.generation ≠ draft.generation) :
      Advances c (.collecting draft diagnostics) (.ok names)
        ({ c with lines }, .waits (.discarding draft.dir [] (.ok diagnostics)))
  | published {lines : List Console.LogLine} {draft : Draft} {names : List String}
      {progress : Progress (Stage .compile) (Except Failure (List Diagnostic))}
      (diagnostics : List Diagnostic) (latest : c.generation = draft.generation)
      (undrafted : progress.next.flatMap drafts = []) (empty : progress.next.flatMap dirs = [])
      (removing : progress.next.flatMap removing = c.retired.toList)
      (settled : progress = .ended (.ok diagnostics) ∨
        ∃ dir, progress = .waits (.discarding dir [] (.ok diagnostics))) :
      Advances c (.collecting draft diagnostics) (.ok names)
        ({ c with
            pages := pageFiles draft.dir names, published := some draft.dir,
            retired := c.published, lines }, progress)
  | forgot {operation : Operation} {stage : Stage operation} {reply : (stage.request c).Reply}
      {progress : Progress (Stage operation) (Except Failure operation.Answer)}
      {root main : Option Path} (selects : stage.Selects)
      (drafts : progress.next.flatMap drafts = [])
      (dirs : progress.next.flatMap removing ++ progress.next.flatMap dirs = c.keptDirs) :
      Advances c stage reply
        ({ c with
            root, main, generation := c.generation + 1, pages := [], published := none,
            retired := none }, progress)

end Stage

open Stage (Advances)

theorem noteRemoval_lines (c : Compiler) (dir : Path) (reply : Except SystemError Unit) :
    ∃ lines, c.noteRemoval dir reply = { c with lines } := by
  cases reply with
  | ok _ => exact ⟨c.lines, rfl⟩
  | error e => exact ⟨_, rfl⟩

/-! ## The steps of a compile -/

theorem publish_late {c : Compiler} {generation : Nat} (dir : Path) (pages : List Path)
    (late : c.generation ≠ generation) :
    ∃ lines, c.publish generation dir pages = (some dir, { c with lines }) :=
  ⟨_, if_pos late⟩

theorem publish_latest {c : Compiler} {generation : Nat} {dir : Path} {pages : List Path}
    (latest : c.generation = generation) :
    c.publish generation dir pages =
      (c.retired, { c with pages, published := some dir, retired := c.published }) :=
  if_neg (not_not_intro latest)

theorem afterPrepare_advances (c : Compiler) (draft : Draft) (reply : Except SystemError Unit) :
    Advances c (.preparing draft) reply (c.afterPrepare draft reply) := by
  cases reply with
  | error e => exact .refused draft e
  | ok _ => exact .prepared draft

theorem afterCompile_advances (c : Compiler) (draft : Draft)
    (reply : Except SystemError Host.Run) :
    Advances c (.compiling draft) reply (c.afterCompile draft reply) := by
  unfold afterCompile
  cases checkRun .compile draft.target reply with
  | error f => exact .failed rfl rfl _ f
  | ok run => exact .drawn draft _

/-- The pages of the latest compile are published once they are listed. -/
theorem afterCollect_latest {c : Compiler} {draft : Draft} (diagnostics : List Diagnostic)
    (names : List String) (latest : c.generation = draft.generation) :
    ∃ lines progress, c.afterCollect draft diagnostics (.ok names) =
        ({ c with
            pages := pageFiles draft.dir names, published := some draft.dir,
            retired := c.published, lines }, progress) ∧
      (c.retired = none ∧ progress = .ended (.ok diagnostics) ∨
        ∃ dir, c.retired = some dir ∧
          progress = .waits (.discarding dir [] (.ok diagnostics))) := by
  simp only [afterCollect]
  generalize said : c.debug _ = d
  obtain ⟨lines, rfl⟩ : ∃ lines, d = { c with lines } := ⟨_, said.symm⟩
  rw [publish_latest (c := { c with lines }) latest]
  cases c.retired with
  | none => exact ⟨lines, _, rfl, .inl ⟨rfl, rfl⟩⟩
  | some dir => exact ⟨lines, _, rfl, .inr ⟨dir, rfl, rfl⟩⟩

/-- Nothing is left to be removed if no directory was retired. -/
theorem afterCollect_unretired {c : Compiler} {draft : Draft} (diagnostics : List Diagnostic)
    (names : List String) (latest : c.generation = draft.generation)
    (unretired : c.retired = none) :
    ∃ lines, c.afterCollect draft diagnostics (.ok names) =
      ({ c with
          pages := pageFiles draft.dir names, published := some draft.dir,
          retired := c.published, lines }, .ended (.ok diagnostics)) := by
  obtain ⟨lines, progress, published, ⟨-, rfl⟩ | ⟨dir, retired, -⟩⟩ :=
    afterCollect_latest diagnostics names latest
  · exact ⟨lines, published⟩
  · cases unretired.symm.trans retired

theorem afterCollect_late {c : Compiler} {draft : Draft} (diagnostics : List Diagnostic)
    (names : List String) (late : c.generation ≠ draft.generation) :
    ∃ lines, c.afterCollect draft diagnostics (.ok names) =
      ({ c with lines }, .waits (.discarding draft.dir [] (.ok diagnostics))) := by
  simp only [afterCollect]
  generalize said : c.debug _ = d
  obtain ⟨lines, rfl⟩ : ∃ lines, d = { c with lines } := ⟨_, said.symm⟩
  obtain ⟨lines', discarded⟩ := publish_late (c := { c with lines }) draft.dir
    (pageFiles draft.dir names) late
  rw [discarded]
  exact ⟨lines', rfl⟩

theorem afterCollect_advances (c : Compiler) (draft : Draft) (diagnostics : List Diagnostic)
    (reply : Except SystemError (List String)) :
    Advances c (.collecting draft diagnostics) reply
      (c.afterCollect draft diagnostics reply) := by
  cases reply with
  | error e => exact .failed rfl rfl [] _
  | ok names =>
    by_cases latest : c.generation = draft.generation
    · obtain ⟨lines, progress, published, ends⟩ := afterCollect_latest diagnostics names latest
      rw [published]
      rcases ends with ⟨retired, rfl⟩ | ⟨dir, retired, rfl⟩
      · exact .published diagnostics latest rfl rfl (by rw [retired]; rfl) (.inl rfl)
      · exact .published diagnostics latest rfl rfl (by rw [retired]; rfl) (.inr ⟨dir, rfl⟩)
    · obtain ⟨lines, discarded⟩ := afterCollect_late diagnostics names latest
      rw [discarded]
      exact .overtaken diagnostics latest

/-! ## The steps of a selection -/

/-- A step after which what is stale is in the hands of a selection. -/
structure Leaves {operation : Operation} (c : Compiler) (stale : List Path)
    (step : Step operation) : Prop where
  rest : ∃ root main, step.1 = { c with root, main }
  drafts : step.2.next.flatMap Stage.drafts = []
  dirs : step.2.next.flatMap Stage.removing ++ step.2.next.flatMap Stage.dirs = stale

theorem leaveRoot_leaves (c : Compiler) (path : Path) (stale : List Path) :
    Leaves c stale (c.leaveRoot path stale) := by
  cases stale with
  | nil => exact ⟨⟨some path, none, rfl⟩, rfl, rfl⟩
  | cons dir rest => exact ⟨⟨c.root, c.main, rfl⟩, rfl, congrArg (dir :: ·) (List.append_nil rest)⟩

theorem leaveMain_leaves (c : Compiler) (path : Path) (stale : List Path) :
    Leaves c stale (c.leaveMain path stale) := by
  cases stale with
  | nil => exact ⟨⟨c.root, some path, rfl⟩, rfl, rfl⟩
  | cons dir rest => exact ⟨⟨c.root, c.main, rfl⟩, rfl, congrArg (dir :: ·) (List.append_nil rest)⟩

namespace Leaves

variable {operation : Operation} {c : Compiler} {stage : Stage operation}
  {reply : (stage.request c).Reply} {step : Step operation}

theorem idles {dir : Path} {answer : Except SystemError Unit}
    (leaves : Leaves (c.noteRemoval dir answer) stage.dirs step) (undrafted : stage.drafts = []) :
    Advances c stage reply step := by
  obtain ⟨lines, noted⟩ := c.noteRemoval_lines dir answer
  obtain ⟨⟨root, main, after⟩, drafts, dirs⟩ := leaves
  obtain ⟨c', progress⟩ := step
  obtain rfl := after.trans (by rw [noted])
  exact .idles undrafted drafts dirs

theorem forgot (leaves : Leaves c.forget.2 c.forget.1 step) (selects : stage.Selects) :
    Advances c stage reply step := by
  obtain ⟨⟨root, main, after⟩, drafts, dirs⟩ := leaves
  obtain ⟨c', progress⟩ := step
  obtain rfl := after
  exact .forgot selects drafts dirs

end Leaves

/-! ## The steps of any call -/

theorem resume_advances {operation : Operation} (c : Compiler) (stage : Stage operation)
    (reply : (stage.request c).Reply) : Advances c stage reply (c.resume stage reply) := by
  cases stage with
  | persisting path text => exact .idles rfl rfl rfl
  | preparing draft => exact afterPrepare_advances ..
  | compiling draft => exact afterCompile_advances ..
  | collecting draft diagnostics => exact afterCollect_advances ..
  | discarding dir lines result =>
    obtain ⟨noted, removal⟩ := c.noteRemoval_lines dir reply
    simp only [resume, removal]
    exact .idles rfl rfl rfl
  | readingAll read file rest =>
    cases reply with
    | error e => exact .idles rfl rfl rfl
    | ok data => cases rest <;> exact .idles rfl rfl rfl
  | reading index file => cases reply <;> exact .idles rfl rfl rfl
  | openingRoot path =>
    cases reply with
    | error e => exact .idles rfl rfl rfl
    | ok kind =>
      cases kind with
      | file => exact .idles rfl rfl rfl
      | directory => exact (leaveRoot_leaves ..).forgot trivial
  | leavingRoot path dir rest => exact (leaveRoot_leaves ..).idles rfl
  | openingMain path =>
    cases reply with
    | error e => exact .idles rfl rfl rfl
    | ok kind => exact (leaveMain_leaves ..).forgot trivial
  | leavingMain path dir rest => exact (leaveMain_leaves ..).idles rfl
  | makingRoom path text dir => cases reply <;> exact .idles rfl rfl rfl
  | creating path text => exact .idles rfl rfl rfl
  | clearingWay target format output dir => cases reply <;> exact .idles rfl rfl rfl
  | exporting target format output =>
    simp only [resume, afterExport]
    split <;> exact .idles rfl rfl rfl

/-! ## What a call begins with -/

/-- `Begins c step`: with the compiler at `c`, the first step of a call leaves it where
    `step` says. -/
inductive Begins (c : Compiler) : {operation : Operation} → Step operation → Prop
  | idles {operation : Operation}
      {progress : Progress (Stage operation) (Except Failure operation.Answer)}
      (drafts : progress.next.flatMap Stage.drafts = [])
      (dirs : progress.next.flatMap Stage.dirs = [])
      (removing : progress.next.flatMap Stage.removing = []) : Begins c (c, progress)
  | drafted (target : Target) :
      Begins c ({ c with generation := c.generation + 1 }, .waits
        (.preparing ⟨target, c.generation + 1, folder c.outDir (c.generation + 1)⟩))

theorem call_begins (c : Compiler) (call : Call) : Begins c (c.call call) := by
  cases call with
  | compile =>
    show Begins c c.startCompile
    unfold startCompile
    cases c.target with
    | error f => exact .idles rfl rfl rfl
    | ok target => exact .drafted target
  | renderAllPages =>
    show Begins c (c.readNext [] c.pages)
    cases c.pages <;> exact .idles rfl rfl rfl
  | renderPage index =>
    simp only [Compiler.call]
    split <;> exact .idles rfl rfl rfl
  | createFile path text =>
    simp only [Compiler.call, startCreate]
    split <;> exact .idles rfl rfl rfl
  | «export» format output =>
    simp only [Compiler.call, startExport]
    split
    · exact .idles rfl rfl rfl
    · split <;> exact .idles rfl rfl rfl
  | _ => exact .idles rfl rfl rfl

theorem Begins.outDir {c : Compiler} {operation : Operation} {step : Step operation}
    (begins : Begins c step) : step.1.outDir = c.outDir := by
  cases begins <;> rfl

theorem Begins.generation_le {c : Compiler} {operation : Operation} {step : Step operation}
    (begins : Begins c step) : c.generation ≤ step.1.generation := by
  cases begins with
  | idles => exact Nat.le_refl _
  | drafted => exact Nat.le_succ _

/-! ## What is kept by a step -/

namespace Stage

variable {operation : Operation}

theorem places_of_undrafted {stage : Stage operation} (undrafted : stage.drafts = []) :
    stage.places = stage.dirs := by
  cases stage with
  | preparing draft => cases undrafted
  | _ => rfl

theorem next_places_of_undrafted
    {progress : Progress (Stage operation) (Except Failure operation.Answer)}
    (undrafted : progress.next.flatMap drafts = []) :
    progress.next.flatMap places = progress.next.flatMap dirs := by
  rw [List.flatMap_eq_nil_iff] at undrafted
  exact List.flatMap_congr fun stage mem => places_of_undrafted (undrafted stage mem)

namespace Advances

variable {c : Compiler} {stage : Stage operation} {reply : (stage.request c).Reply}
  {step : Step operation}

theorem outDir (advances : Advances c stage reply step) : step.1.outDir = c.outDir := by
  cases advances <;> rfl

theorem generation (advances : Advances c stage reply step) :
    c.generation ≤ step.1.generation := by
  cases advances with
  | forgot => exact Nat.le_succ _
  | _ => exact Nat.le_refl _

theorem next_drafts (advances : Advances c stage reply step) :
    (step.2.next.flatMap drafts).Sublist stage.drafts := by
  cases advances with
  | idles undrafted drafts dirs => exact drafts ▸ List.nil_sublist _
  | published diagnostics latest undrafted empty removing settled =>
    exact undrafted ▸ List.nil_sublist _
  | forgot selects drafts dirs => exact drafts ▸ List.nil_sublist _
  | prepared => exact List.Sublist.refl _
  | drawn => exact List.Sublist.refl _
  | _ => exact List.nil_sublist _

/-- A directory is not given to two holders. -/
theorem count_le (advances : Advances c stage reply step) (dir : Path) :
    (step.2.next.flatMap removing ++ step.1.keptDirs ++ step.2.next.flatMap places).count dir ≤
      (c.keptDirs ++ stage.places).count dir := by
  cases advances with
  | @idles operation stage reply progress root main lines undrafted drafts hand =>
    have moved := congrArg (List.count dir) hand
    rw [next_places_of_undrafted drafts, places_of_undrafted undrafted]
    show (_ ++ c.keptDirs ++ _).count dir ≤ _
    simp only [List.count_append] at moved ⊢
    omega
  | refused draft e =>
    show (c.keptDirs ++ []).count dir ≤ _
    rw [List.append_nil]
    exact (List.sublist_append_left _ _).count_le dir
  | prepared draft => exact Nat.le_refl _
  | drawn draft diagnostics => exact Nat.le_refl _
  | @failed stage reply draft drafts hand lines f =>
    show ([draft.dir] ++ c.keptDirs ++ []).count dir ≤
      (c.keptDirs ++ (stage.awaited ++ stage.dirs)).count dir
    simp only [hand, List.count_append, List.count_nil]
    omega
  | @overtaken lines names draft diagnostics late =>
    show ([draft.dir] ++ c.keptDirs ++ []).count dir ≤ (c.keptDirs ++ [draft.dir]).count dir
    simp only [List.count_append, List.count_nil]
    omega
  | @published lines draft names progress diagnostics latest undrafted empty removing settled =>
    rw [removing, next_places_of_undrafted undrafted, empty]
    show (c.retired.toList ++ ([draft.dir] ++ c.published.toList) ++ []).count dir ≤
      (c.published.toList ++ c.retired.toList ++ [draft.dir]).count dir
    simp only [List.count_append, List.count_nil]
    omega
  | @forgot operation stage reply progress root main selects drafts hand =>
    have moved := congrArg (List.count dir) hand
    rw [next_places_of_undrafted drafts]
    show (_ ++ [] ++ _).count dir ≤ _
    simp only [List.count_append, List.count_nil] at moved ⊢
    omega

/-- No directory is dropped. -/
theorem mem_of_mem (advances : Advances c stage reply step) {dir : Path}
    (mem : dir ∈ c.keptDirs ++ stage.dirs) :
    dir ∈ step.2.next.flatMap removing ++ step.1.keptDirs ++ step.2.next.flatMap dirs := by
  cases advances with
  | idles undrafted drafts moved =>
    rw [← moved] at mem
    simp only [keptDirs, List.mem_append] at mem ⊢
    grind
  | refused draft e => exact mem
  | prepared draft =>
    change dir ∈ c.keptDirs ++ [] at mem
    rw [List.append_nil] at mem
    exact List.mem_append_left _ mem
  | drawn draft diagnostics => exact mem
  | @failed stage reply draft drafts hand lines f =>
    rw [hand] at mem
    show dir ∈ [draft.dir] ++ c.keptDirs ++ []
    simp only [List.mem_append] at mem ⊢
    grind
  | @overtaken lines names draft diagnostics late =>
    show dir ∈ [draft.dir] ++ c.keptDirs ++ []
    change dir ∈ c.keptDirs ++ [draft.dir] at mem
    simp only [List.mem_append] at mem ⊢
    grind
  | @published lines draft names progress diagnostics latest undrafted empty removing settled =>
    rw [removing, empty]
    show dir ∈ c.retired.toList ++ ([draft.dir] ++ c.published.toList) ++ []
    change dir ∈ c.published.toList ++ c.retired.toList ++ [draft.dir] at mem
    simp only [List.mem_append] at mem ⊢
    grind
  | @forgot operation stage reply progress root main selects drafts moved =>
    have empty : stage.dirs = [] := by
      cases stage with
      | openingRoot path => rfl
      | openingMain path => rfl
      | _ => cases selects
    rw [empty, List.append_nil, ← moved] at mem
    show dir ∈ _ ++ [] ++ _
    simpa only [List.append_nil] using mem

/-- A directory that is made for a compile is in its hands. -/
theorem mem_of_makes {stage : Stage .compile} {reply : (stage.request c).Reply}
    {step : Step .compile} (advances : Advances c stage reply step) {dir : Path}
    (mem : dir ∈ (stage.request c).makes reply) : dir ∈ step.2.next.flatMap dirs := by
  cases stage with
  | preparing draft =>
    cases advances with
    | idles undrafted => cases undrafted
    | refused draft e => cases mem
    | prepared draft => exact mem
    | failed drafts hand => cases hand
    | forgot selects => cases selects
  | _ => cases mem

end Advances

end Stage

end Compiler

end LivePreview
