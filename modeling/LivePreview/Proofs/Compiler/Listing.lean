import LivePreview.Compiler.Page
import LivePreview.Proofs.Path.FileName
import LivePreview.Proofs.Text.Digits
import Mathlib.Data.List.Basic

/-!
# Listed pages

A page file is known by its name alone (`pageNumber?_eq_some_iff`).  A directory is listed in any
order, but its page files are served in that of their numbers (`pageFiles_eq`, `listed_perm`).
-/

namespace LivePreview

namespace Path

theorem dropTail_of_not_mem {back : List Char} (noSlash : '/' ∉ back) : dropTail back = back := by
  fun_cases dropTail back <;> simp_all

/-- A text without slashes is a file name, unless it is none of a component. -/
theorem fileNameOf?_eq_some_iff {cs name : List Char} (noSlash : '/' ∉ cs) :
    fileNameOf? cs = some name ↔ cs = name ∧ IsName name := by
  have noSlashBack : '/' ∉ cs.reverse := by simpa using noSlash
  have whole : cutLast cs.reverse = (cs.reverse, []) := by
    have all : cutLast (cs.reverse ++ []) = (cs.reverse, []) := cutLast_append noSlash nofun
    rwa [List.append_nil] at all
  rw [← component?_eq_name_iff noSlash, fileNameOf?, dropTail_of_not_mem noSlashBack, whole]
  dsimp only
  rw [List.reverse_reverse]
  split
  · next chars counts => simp [counts]
  · next other =>
    simp only [reduceCtorEq, false_iff]
    exact other name

end Path

namespace Compiler

variable {dir : Path} {names : List String} {name : String} {n : Nat}

/-- Whether a file name is that of the page with a number. -/
def IsPageName (name : String) (n : Nat) : Prop :=
  ∃ number, name.toList = "page-".toList ++ number ++ ".png".toList ∧ Text.Spells number n

theorem pageNumber?_eq_some_iff (plain : '/' ∉ name.toList) :
    pageNumber? name = some n ↔ IsPageName name n := by
  constructor
  · intro numbered
    rw [pageNumber?] at numbered
    split at numbered
    · next image =>
      obtain ⟨file, named, ofFile⟩ := Option.bind_eq_some_iff.mp image
      obtain ⟨extension, cut, png⟩ := Option.map_eq_some_iff.mp ofFile
      obtain ⟨rfl, isName⟩ := (Path.fileNameOf?_eq_some_iff plain).mp named
      obtain ⟨-, -, whole⟩ := Path.cutExtension_eq_some_iff.mp (Prod.ext rfl cut)
      obtain ⟨stem, first, numbered⟩ := Option.bind_eq_some_iff.mp numbered
      obtain ⟨number, second, spells⟩ := Option.bind_eq_some_iff.mp numbered
      rw [Path.stem?, named, Option.map_some, Option.some.injEq] at first
      have letters : extension = "png".toList := by rw [← png, String.toList_ofList]
      have same : stem.toList = (Path.cutExtension name.toList).1 := by
        rw [← first, String.toList_ofList]
      have beginning : "page-".toList ++ number = stem.toList :=
        List.isPrefixOf?_eq_some_iff_append_eq.mp second
      refine ⟨number, ?_, Text.word?_eq_some_iff_spells.mp spells⟩
      rw [whole, letters, beginning, same]
      rfl
    · cases numbered
  · rintro ⟨number, whole, spells⟩
    have isName : Path.IsName name.toList := .of_mem (c := 'p') plain (by simp [whole]) (by decide)
    have named := (Path.fileNameOf?_eq_some_iff plain).mpr ⟨rfl, isName⟩
    have cut : Path.cutExtension name.toList = ("page-".toList ++ number, some "png".toList) :=
      Path.cutExtension_eq_some_iff.mpr ⟨by simp, by decide, whole⟩
    have read : Text.word? number = some n := Text.word?_eq_some_iff_spells.mpr spells
    have prefixed : Text.dropBeginning? "page-".toList ("page-".toList ++ number) = some number :=
      List.isPrefixOf?_eq_some_iff_append_eq.mpr rfl
    simp only [pageNumber?, Path.extension?, Path.stem?, named, cut, Option.bind_some,
      Option.map_some, String.ofList_toList, if_true, Option.bind_eq_bind, String.toList_ofList,
      prefixed, read]

/-! ## Listings -/

/-- The names of the page files with their numbers. -/
def numbered (names : List String) : List (Nat × String) :=
  names.filterMap fun name => (pageNumber? name).map fun n => (n, name)

/-- The names of the page files with their numbers, in the order of these. -/
def listed (names : List String) : List (Nat × String) :=
  (numbered names).mergeSort fun a b => a.1 ≤ b.1

/-- Whether no two files are pages with one number. -/
def Distinct (names : List String) : Prop :=
  names.Pairwise fun a b => ∀ n, IsPageName a n → ¬ IsPageName b n

theorem pageFiles_eq : pageFiles dir names = (listed names).map fun page => dir.child page.2 := by
  let place (page : Nat × String) : Nat × Path := (page.1, dir.child page.2)
  have placed : (names.filterMap fun name =>
      (pageNumber? name).map fun n => (n, dir.child name)) = (numbered names).map place := by
    rw [numbered, List.map_filterMap]
    refine congrArg (List.filterMap · names) (funext fun name => ?_)
    rw [Option.map_map]
    rfl
  have sorted : (listed names).map place =
      ((numbered names).map place).mergeSort fun a b => a.1 ≤ b.1 :=
    List.map_mergeSort fun _ _ _ _ => rfl
  rw [pageFiles, placed, ← sorted, List.map_map]
  rfl

section Plain

variable (plain : ∀ name ∈ names, '/' ∉ name.toList)

include plain

theorem mem_numbered_iff :
    (n, name) ∈ numbered names ↔ name ∈ names ∧ IsPageName name n := by
  simp only [numbered, List.mem_filterMap, Option.map_eq_some_iff, Prod.mk.injEq]
  constructor
  · rintro ⟨_, known, _, page, rfl, rfl⟩
    exact ⟨known, (pageNumber?_eq_some_iff (plain _ known)).mp page⟩
  · rintro ⟨known, page⟩
    exact ⟨name, known, n, (pageNumber?_eq_some_iff (plain _ known)).mpr page, rfl, rfl⟩

theorem mem_listed_iff :
    (n, name) ∈ listed names ↔ name ∈ names ∧ IsPageName name n := by
  rw [listed, List.mem_mergeSort, mem_numbered_iff plain]

theorem numbered_apart (distinct : Distinct names) :
    (numbered names).Pairwise fun a b => a.1 ≠ b.1 := by
  rw [numbered, List.pairwise_filterMap]
  refine distinct.imp_of_mem fun {a b} inA inB apart => ?_
  intro page first page' second
  obtain ⟨n, isA, rfl⟩ := Option.map_eq_some_iff.mp first
  obtain ⟨m, isB, rfl⟩ := Option.map_eq_some_iff.mp second
  rintro rfl
  exact apart n ((pageNumber?_eq_some_iff (plain a inA)).mp isA)
    ((pageNumber?_eq_some_iff (plain b inB)).mp isB)

theorem listed_ordered (distinct : Distinct names) :
    (listed names).Pairwise fun a b => a.1 < b.1 := by
  have sorted : (listed names).Pairwise fun a b => decide (a.1 ≤ b.1) = true :=
    List.pairwise_mergeSort (fun a b c => by simpa using Nat.le_trans)
      (fun a b => by simpa using Nat.le_total a.1 b.1) _
  have apart : (listed names).Pairwise fun a b => a.1 ≠ b.1 :=
    ((List.mergeSort_perm _ _).pairwise_iff Ne.symm).mpr (numbered_apart plain distinct)
  refine sorted.imp₂ (fun {a b} le ne => ?_) apart
  exact Nat.lt_of_le_of_ne (of_decide_eq_true le) ne

theorem distinct_of_nodup (nodup : (names.filterMap pageNumber?).Nodup) : Distinct names := by
  rw [List.Nodup, List.pairwise_filterMap] at nodup
  refine nodup.imp_of_mem fun {a b} inA inB apart n isA isB => ?_
  exact apart n ((pageNumber?_eq_some_iff (plain a inA)).mpr isA) n
    ((pageNumber?_eq_some_iff (plain b inB)).mpr isB) rfl

/-- The order in which a directory is listed does not matter. -/
theorem listed_perm {names' : List String} (distinct : Distinct names)
    (perm : names.Perm names') : listed names = listed names' := by
  have both : (listed names).Perm (listed names') :=
    ((List.mergeSort_perm _ _).trans (perm.filterMap _)).trans (List.mergeSort_perm _ _).symm
  have plain' : ∀ name ∈ names', '/' ∉ name.toList := fun name mem =>
    plain name (perm.mem_iff.mpr mem)
  have distinct' : Distinct names' := by
    refine (perm.pairwise_iff ?_).mp distinct
    exact fun apart n isB isA => apart n isA isB
  refine both.eq_of_pairwise ?_ (listed_ordered plain distinct) (listed_ordered plain' distinct')
  intro a b _ _ below above
  omega

end Plain

end Compiler

end LivePreview
