import LivePreview.Proofs.Compiler.Holding

/-!
# Page reads

A read of pages captures page files when it begins, and asks for one of them after the
other.  As long as it finds what was there at first, it has read the first of the files
and goes on with the rest (`Stage.Gathers`), and in the end it answers all of them, in
their order (`Gathered.answer`).
-/

namespace LivePreview.Compiler

open Preview (Progress)

/-- The pages in the contents of page files. -/
def pagesOf (contents : List ByteArray) : List Page :=
  contents.zipIdx.map fun (data, index) => readPage index data

theorem pagesOf_snoc (contents : List ByteArray) (data : ByteArray) :
    pagesOf (contents ++ [data]) = pagesOf contents ++ [readPage contents.length data] := by
  simp [pagesOf, List.zipIdx_append]

theorem pagesOf_length (contents : List ByteArray) :
    (pagesOf contents).length = contents.length := by
  simp [pagesOf]

theorem pagesOf_index (contents : List ByteArray) :
    (pagesOf contents).map Page.index = List.range contents.length := by
  rw [pagesOf, List.map_map, List.range_eq_range', ← List.zipIdx_map_snd]
  exact List.map_congr_left fun pair _ => rfl

/-- The contents of the files that are there. -/
abbrev Files : Type :=
  Path → Option ByteArray

/-- What is read of a file is what is in it. -/
def Found (files : Files) : (request : Host.Request) → request.Reply → Prop
  | .read file, .ok data => files file = some data
  | _, _ => True

/-- The files that a call captures when it begins. -/
def captured (c : Compiler) : Call → List Path
  | .renderAllPages => c.pages
  | .renderPage index => c.pages[index]?.toList
  | _ => []

theorem captured_subset_pages (c : Compiler) (call : Call) : captured c call ⊆ c.pages := by
  cases call with
  | renderAllPages => exact List.Subset.refl _
  | renderPage index =>
    intro file mem
    exact List.mem_of_getElem? (Option.mem_toList.mp mem)
  | _ => exact List.nil_subset _

/-- A call that waits for a file has captured it.  The files before it have been read,
    and those behind it are still to be read. -/
def Stage.Gathers (files : Files) (capture : List Path) :
    {operation : Operation} → Stage operation → Prop
  | _, .readingAll read file rest => ∃ before contents, capture = before ++ file :: rest ∧
      before.map files = contents.map some ∧ read.reverse = pagesOf contents
  | _, .reading _ file => file ∈ capture
  | _, _ => True

/-- What is asked for has been captured. -/
theorem Stage.Gathers.asks {files : Files} {capture : List Path} {operation : Operation}
    {c : Compiler} {stage : Stage operation} (gathers : stage.Gathers files capture) {file : Path}
    (asks : stage.request c = .read file) : file ∈ capture := by
  cases stage with
  | readingAll read next rest =>
    obtain ⟨before, contents, here, -, -⟩ := gathers
    obtain rfl := Host.Request.read.inj asks
    rw [here]
    exact List.mem_append_cons_self
  | reading index next =>
    obtain rfl := Host.Request.read.inj asks
    exact gathers
  | _ => cases asks

/-- What a full read answers with success. -/
def allPages? : (operation : Operation) →
    Progress (Stage operation) (Except Failure operation.Answer) → Option (List Page)
  | .renderAllPages, .ended (.ok pages) => some pages
  | _, _ => none

/-- Where a call stands that has captured files: it gathers them, or has all of them. -/
structure Gathered (files : Files) (capture : List Path) {operation : Operation}
    (progress : Progress (Stage operation) (Except Failure operation.Answer)) : Prop where
  next : ∀ stage ∈ progress.next, stage.Gathers files capture
  answer : ∀ pages ∈ allPages? operation progress, ∃ contents,
    capture.map files = contents.map some ∧ pages = pagesOf contents

variable {files : Files} {capture : List Path}

/-- Only reads of pages have anything to gather. -/
theorem Gathered.of_other {operation : Operation} (all : operation ≠ .renderAllPages)
    (one : operation ≠ .renderPage)
    (progress : Progress (Stage operation) (Except Failure operation.Answer)) :
    Gathered files capture progress := by
  refine ⟨fun stage _ => ?_, fun pages mem => ?_⟩
  · cases stage <;> trivial
  · cases operation <;> first | cases mem | exact absurd rfl all

theorem Gathered.ended (result : Except Failure Page) :
    Gathered files capture (.ended result : Progress (Stage .renderPage) _) :=
  ⟨(fun _ mem => nomatch mem), fun _ mem => nomatch mem⟩

theorem readNext_gathered (c : Compiler) {read : List Page} {rest : List Path}
    (before : List Path) (contents : List ByteArray) (here : capture = before ++ rest)
    (found : before.map files = contents.map some) (pages : read.reverse = pagesOf contents) :
    Gathered files capture (c.readNext read rest).2 := by
  cases rest with
  | nil =>
    rw [List.append_nil] at here
    refine ⟨fun _ mem => (nomatch mem), ?_⟩
    rintro _ ⟨⟩
    exact ⟨contents, here ▸ found, pages⟩
  | cons file rest =>
    refine ⟨fun stage mem => ?_, fun _ mem => nomatch mem⟩
    rw [List.mem_singleton.mp mem]
    exact ⟨before, contents, here, found, pages⟩

theorem call_gathered (c : Compiler) (call : Call) :
    Gathered files (captured c call) (c.call call).2 := by
  cases call with
  | renderAllPages => exact readNext_gathered c [] [] rfl rfl rfl
  | renderPage index =>
    simp only [Compiler.call, pageFile, captured]
    cases c.pages[index]? with
    | none => exact .ended _
    | some file =>
      refine ⟨fun stage mem => ?_, fun _ mem => by cases mem⟩
      rw [List.mem_singleton.mp mem]
      exact List.mem_singleton_self file
  | _ => exact .of_other (by simp [Call.operation]) (by simp [Call.operation]) _

theorem Stage.Gathers.resume {operation : Operation} {c : Compiler} {stage : Stage operation}
    (gathers : stage.Gathers files capture) {reply : (stage.request c).Reply}
    (found : Found files _ reply) : Gathered files capture (c.resume stage reply).2 := by
  cases stage with
  | readingAll read file rest =>
    obtain ⟨before, contents, here, known, pages⟩ := gathers
    cases reply with
    | error e => exact ⟨(fun _ mem => nomatch mem), fun _ mem => nomatch mem⟩
    | ok data =>
      have count : read.length = contents.length := by
        rw [← List.length_reverse, pages, pagesOf_length]
      apply readNext_gathered c (before ++ [file]) (contents ++ [data])
      · rw [here, List.append_assoc, List.singleton_append]
      · rw [List.map_append, List.map_append, known, List.map_singleton, List.map_singleton]
        rw [show files file = some data from found]
      · rw [List.reverse_cons, pages, pagesOf_snoc, count]
  | reading index file =>
    cases reply <;> exact .ended _
  | _ => exact .of_other (by decide) (by decide) _

end LivePreview.Compiler
