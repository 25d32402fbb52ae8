import LivePreview.Compiler.Answer
import LivePreview.Proofs.Compiler.Listing
import LivePreview.Proofs.Compiler.Reading
import LivePreview.Proofs.Host.Runs

/-!
# Served pages

As long as the page files can be read, the calls about pages agree on what there is
(`pages_served`).  A call captures the files when it begins, so that it does not matter what other
calls do to the compiler between its steps (`Returns`); when nothing happens between them, it ends
with the same result (`Returns.run`).
-/

namespace LivePreview.Compiler

open Host (Program Request)
open Preview (Progress)

variable {operation : Operation} {known : (request : Request) → request.Reply → Prop}

/-- Whether a call ends with a result, on every system that replies what is known, and whatever
    becomes of the compiler between the steps. -/
inductive Returns (known : (request : Request) → request.Reply → Prop) :
    Progress (Stage operation) (Except Failure operation.Answer) →
      Except Failure operation.Answer → Prop where
  | ended (result : Except Failure operation.Answer) : Returns known (.ended result) result
  | waits {stage : Stage operation} {result : Except Failure operation.Answer}
      (next : ∀ c reply, known (stage.request c) reply →
        Returns known (c.resume stage reply).2 result) : Returns known (.waits stage) result

theorem run_finish {m : Type → Type} [Monad m] [LawfulMonad m]
    (answer : (request : Request) → m request.Reply) (c : Compiler) (stage : Stage operation) :
    (c.finish stage).run answer =
      answer (stage.request c) >>= fun reply => (conclude (c.resume stage reply)).run answer := by
  rw [finish, Program.run]
  refine bind_congr fun reply => congrArg (Program.run answer) ?_
  split <;> next step => exact (congrArg conclude step).symm

/-- A call that returns a result ends with it when it is carried out. -/
theorem Returns.run {progress : Progress (Stage operation) (Except Failure operation.Answer)}
    {result : Except Failure operation.Answer} (returns : Returns known progress result) {σ : Type}
    (answer : (request : Request) → StateM σ request.Reply)
    (replies : ∀ request s, known request ((answer request).run s).1) (c : Compiler) (s : σ) :
    ∃ c' s', ((conclude (c, progress)).run answer).run s = ((result, c'), s') := by
  induction returns generalizing c s with
  | ended result => exact ⟨c, s, rfl⟩
  | @waits stage result next ih =>
    let asked := (answer (stage.request c)).run s
    obtain ⟨c', s', ends⟩ := ih c asked.1 (replies _ s) (c.resume stage asked.1).1 asked.2
    refine ⟨c', s', ?_⟩
    rw [conclude, run_finish, StateT.run_bind]
    exact ends

/-! ## Calls about pages -/

/-- Whether what is read of some files is what is in them. -/
def Readable (contents : Path → ByteArray) (files : List Path) :
    (request : Request) → request.Reply → Prop
  | .read file, reply => file ∈ files → reply = .ok (contents file)
  | _, _ => True

variable {contents : Path → ByteArray} {files : List Path}

theorem readNext_returns (c : Compiler) {read : List Page} {rest : List Path}
    (before : List ByteArray) (pages : read.reverse = pagesOf before) (served : rest ⊆ files) :
    Returns (Readable contents files) (c.readNext read rest).2
      (.ok (pagesOf (before ++ rest.map contents))) := by
  induction rest generalizing c read before with
  | nil =>
    rw [List.map_nil, List.append_nil, ← pages]
    exact .ended _
  | cons file rest ih =>
    refine .waits fun c reply replied => ?_
    obtain rfl : reply = .ok (contents file) := replied (served List.mem_cons_self)
    have count : read.length = before.length := by
      rw [← List.length_reverse, pages, pagesOf_length]
    rw [List.map_cons, List.append_cons]
    refine ih c (before ++ [contents file]) ?_ (List.subset_of_cons_subset served)
    rw [List.reverse_cons, pages, pagesOf_snoc, count]

theorem renderAllPages_returns (c : Compiler) :
    Returns (Readable contents c.pages) (c.call .renderAllPages).2
      (.ok (pagesOf (c.pages.map contents))) :=
  readNext_returns c [] rfl (List.Subset.refl _)

theorem renderPage_returns {c : Compiler} {index : Nat} {file : Path}
    (there : c.pages[index]? = some file) :
    Returns (Readable contents c.pages) (c.call (.renderPage index)).2
      (.ok (readPage index (contents file))) := by
  rw [call, pageFile, there]
  refine .waits fun c reply replied => ?_
  obtain rfl : reply = .ok (contents file) := replied (List.mem_of_getElem? there)
  exact .ended _

theorem renderPage_out_of_range {c : Compiler} {index : Nat} (beyond : c.pages.length ≤ index) :
    (c.call (.renderPage index)).2 = .ended (.error (.transport .renderPage
      s!"page {index} out of range ({c.pages.length} pages)")) := by
  rw [call, pageFile, List.getElem?_eq_none beyond]

/-- The page files in a directory that is listed in any order are those with the name of a page,
    once each, in the order of their numbers.  As long as they are served and can be read, their
    count is the page count, a single page is the one at its place among all of them, and there
    are no others. -/
theorem pages_served (dir : Path) (names : List String) (plain : ∀ name ∈ names, '/' ∉ name.toList)
    (distinct : Distinct names) :
    ∃ listed : List (Nat × String),
      (∀ n name, (n, name) ∈ listed ↔ name ∈ names ∧ IsPageName name n) ∧
      (listed.Pairwise fun a b => a.1 < b.1) ∧
      (∀ names' : List String, names.Perm names' →
        pageFiles dir names' = listed.map fun page => dir.child page.2) ∧
      ∀ (c : Compiler) (contents : Path → ByteArray), c.pages = pageFiles dir names →
        Returns (Readable contents c.pages) (c.call .pageCount).2 (.ok listed.length) ∧
        ∃ pages : List Page, pages.length = listed.length ∧
          Returns (Readable contents c.pages) (c.call .renderAllPages).2 (.ok pages) ∧
          (∀ (i : Nat) (inside : i < pages.length),
            pages[i].index = i ∧
            (∀ file ∈ c.pages[i]?, pages[i].data = contents file) ∧
            Returns (Readable contents c.pages) (c.call (.renderPage i)).2 (.ok pages[i])) ∧
          ∀ i, pages.length ≤ i →
            Returns (Readable contents c.pages) (c.call (.renderPage i)).2
              (.error (.transport .renderPage
                s!"page {i} out of range ({pages.length} pages)")) := by
  refine ⟨listed names, fun n name => mem_listed_iff plain, listed_ordered plain distinct,
    fun names' perm => ?_, fun c contents served => ?_⟩
  · rw [pageFiles_eq, listed_perm plain distinct perm]
  · have count : (listed names).length = c.pages.length := by
      rw [served, pageFiles_eq, List.length_map]
    have all : (pagesOf (c.pages.map contents)).length = c.pages.length := by
      rw [pagesOf_length, List.length_map]
    refine ⟨?_, pagesOf (c.pages.map contents), by rw [all, count], renderAllPages_returns c,
      fun i inside => ?_, fun i beyond => ?_⟩
    · rw [count]
      exact .ended _
    · rw [all] at inside
      have here : (pagesOf (c.pages.map contents))[i] = readPage i (contents c.pages[i]) := by
        simp [pagesOf]
      rw [here]
      refine ⟨rfl, fun file mem => ?_, renderPage_returns (List.getElem?_eq_getElem inside)⟩
      rw [List.getElem?_eq_getElem inside] at mem
      exact congrArg contents (Option.some.inj mem)
    · rw [all] at beyond ⊢
      rw [renderPage_out_of_range beyond]
      exact .ended _

/-- A directory with three pages, numbered in different ways, and with other files. -/
def mixedNames : List String :=
  ["page-10.png", "notes.txt", "page-02.png", "page-x.png", "page-+1.png"]

/-- A compiler that serves these pages. -/
def mixedPages : Compiler :=
  { start ⟨"typst"⟩ 144 ⟨"/o"⟩ with
    pages := [⟨"/o/page-+1.png"⟩, ⟨"/o/page-02.png"⟩, ⟨"/o/page-10.png"⟩] }

theorem mixed_pages_served :
    (∀ name ∈ mixedNames, '/' ∉ name.toList) ∧ Distinct mixedNames ∧
      pageFiles ⟨"/o"⟩ mixedNames.reverse = mixedPages.pages ∧
      ∀ contents : Path → ByteArray,
        Returns (Readable contents mixedPages.pages) (mixedPages.call .pageCount).2 (.ok 3) ∧
        ∃ pages : List Page, pages.length = 3 ∧
          Returns (Readable contents mixedPages.pages) (mixedPages.call .renderAllPages).2
            (.ok pages) ∧
          (∀ (i : Nat) (inside : i < pages.length), pages[i].index = i ∧
            Returns (Readable contents mixedPages.pages) (mixedPages.call (.renderPage i)).2
              (.ok pages[i])) ∧
          Returns (Readable contents mixedPages.pages) (mixedPages.call (.renderPage 3)).2
            (.error (.transport .renderPage "page 3 out of range (3 pages)")) := by
  have plain : ∀ name ∈ mixedNames, '/' ∉ name.toList := by decide
  have distinct : Distinct mixedNames := distinct_of_nodup plain (by decide +kernel)
  have numbers : numbered mixedNames =
      [(10, "page-10.png"), (2, "page-02.png"), (1, "page-+1.png")] := by decide +kernel
  have sorted : listed mixedNames =
      [(1, "page-+1.png"), (2, "page-02.png"), (10, "page-10.png")] := by
    rw [listed, numbers]
    simp [List.mergeSort]
  have here : pageFiles ⟨"/o"⟩ mixedNames = mixedPages.pages := by
    rw [pageFiles_eq, sorted]
    decide +kernel
  obtain ⟨listed, -, -, anyOrder, serves⟩ := pages_served ⟨"/o"⟩ mixedNames plain distinct
  have count : listed.length = 3 := by
    have lengths := congrArg List.length ((anyOrder _ (.refl _)).symm.trans here)
    rwa [List.length_map] at lengths
  refine ⟨plain, distinct, ?_, fun contents => ?_⟩
  · rw [anyOrder _ (List.reverse_perm _).symm, ← anyOrder _ (.refl _), here]
  · obtain ⟨counted, pages, length, all, single, beyond⟩ := serves mixedPages contents here.symm
    rw [count] at counted length
    refine ⟨counted, pages, length, all, fun i inside => ?_, ?_⟩
    · obtain ⟨index, -, served⟩ := single i inside
      exact ⟨index, served⟩
    · have out := beyond 3 (Nat.le_of_eq length)
      rwa [length] at out

end LivePreview.Compiler
