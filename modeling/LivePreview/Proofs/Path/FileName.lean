import LivePreview.Path.Basic
import LivePreview.Proofs.Text.Cuts

/-!
# The file name in a path

A path with a file name ends in it, but for slashes and dots (`EndsIn`).  Its parent is the rest
without the slashes in between, and its extension is told by the name alone.  A new extension and
a new name leave the directory as it is (`EndsIn.setExtension`, `EndsIn.setFileName`).
-/

namespace LivePreview.Path

variable {cs name dir back : List Char} {p : Path}

/-! ## Tails -/

theorem dropTail_suffix (back : List Char) : dropTail back <:+ back := by
  fun_induction dropTail back with
  | case1 c rest ih => exact ih.trans (List.suffix_cons ..)
  | case2 rest ih => exact ih.trans (List.suffix_cons ..)
  | case3 back => exact List.suffix_refl back

theorem dropTail_dropTail (back : List Char) : dropTail (dropTail back) = dropTail back := by
  fun_induction dropTail back with
  | case1 c rest ih => exact ih
  | case2 rest ih => exact ih
  | case3 back noSlash noDot =>
    rw [dropTail]
    · exact noSlash
    · exact noDot

/-- A name is no component of dots. -/
structure IsName (name : List Char) : Prop where
  some : name ≠ []
  noSlash : '/' ∉ name
  notHere : name ≠ ['.']
  notUp : name ≠ ['.', '.']

theorem IsName.of_mem {c : Char} (noSlash : '/' ∉ name) (mem : c ∈ name) (noDot : c ≠ '.') :
    IsName name := by
  refine ⟨?_, noSlash, ?_, ?_⟩ <;> rintro rfl <;> simp_all

theorem component?_eq_name_iff {piece : List Char} (noSlash : '/' ∉ piece) :
    component? piece = some (.name name) ↔ piece = name ∧ IsName name := by
  constructor
  · intro counts
    unfold component? at counts
    split at counts <;> simp only [reduceCtorEq, Option.some.injEq, Component.name.injEq] at counts
    next some notHere notUp =>
      subst counts
      exact ⟨rfl, some, noSlash, notHere, notUp⟩
  · rintro ⟨rfl, isName⟩
    unfold component?
    split
    · exact absurd rfl isName.some
    · exact absurd rfl isName.notHere
    · exact absurd rfl isName.notUp
    · rfl

/-- A name has no tail to drop. -/
theorem dropTail_of_isName (isName : IsName name) (dir : List Char) :
    dropTail (name.reverse ++ dir) = name.reverse ++ dir := by
  have noSlash : '/' ∉ name.reverse := by simpa using isName.noSlash
  have notHere : name.reverse ≠ ['.'] := by simpa using isName.notHere
  have some : name.reverse ≠ [] := by simpa using isName.some
  generalize name.reverse = last at *
  obtain ⟨c, front, rfl⟩ := List.exists_cons_of_ne_nil some
  rw [dropTail]
  · rintro d rest slash
    obtain ⟨rfl, -⟩ := List.cons.inj slash
    exact noSlash List.mem_cons_self
  · rintro rest dot
    obtain ⟨rfl, behind⟩ := List.cons.inj dot
    cases front with
    | nil => exact notHere rfl
    | cons d front =>
      obtain ⟨rfl, -⟩ := List.cons.inj behind
      exact noSlash (List.mem_cons_of_mem _ List.mem_cons_self)

/-! ## Names -/

/-- `EndsIn cs dir name`: without its tail the text ends in the name.  What is in front of it,
    backwards, is `dir`. -/
structure EndsIn (cs dir name : List Char) : Prop where
  back : dropTail cs.reverse = name.reverse ++ dir
  apart : ∀ c ∈ dir.head?, c = '/'
  isName : IsName name

theorem cutLast_append (noSlash : '/' ∉ name) (apart : ∀ c ∈ dir.head?, c = '/') :
    cutLast (name.reverse ++ dir) = (name.reverse, dir) := by
  have inName := Text.decide_ne_of_not_mem (mt List.mem_reverse.mp noSlash)
  have stops : ∀ c ∈ dir.head?, decide (c ≠ '/') = false := by simpa using apart
  rw [cutLast, Text.takeWhile_run inName stops, Text.dropWhile_run inName stops]

theorem endsIn_append (isName : IsName name) (apart : ∀ c ∈ dir.head?, c = '/') :
    EndsIn (dir.reverse ++ name) dir name where
  back := by
    rw [List.reverse_append, List.reverse_reverse]
    exact dropTail_of_isName isName dir
  apart := apart
  isName := isName

theorem endsIn_of_fileNameOf? (named : fileNameOf? cs = some name) : ∃ dir, EndsIn cs dir name := by
  unfold fileNameOf? at named
  dsimp only at named
  split at named
  · next chars counts =>
    obtain rfl := Option.some.inj named
    have noSlash : '/' ∉ (cutLast (dropTail cs.reverse)).1.reverse := by
      intro mem
      have other := List.mem_takeWhile_imp (List.mem_reverse.mp mem)
      simp at other
    obtain ⟨same, isName⟩ := (component?_eq_name_iff noSlash).mp counts
    refine ⟨(cutLast (dropTail cs.reverse)).2, ?_, ?_, isName⟩
    · rw [← same, List.reverse_reverse, cutLast, List.takeWhile_append_dropWhile]
    · intro c first
      have stops := List.head?_dropWhile_not (· ≠ '/') (dropTail cs.reverse)
      rw [cutLast] at first
      rw [Option.mem_def.mp first] at stops
      simpa using stops
  · cases named

namespace EndsIn

variable (ends : EndsIn cs dir name)

include ends

/-- Only slashes and dots stand behind the name. -/
theorem front_prefix : dir.reverse ++ name <+: cs := by
  have tail := dropTail_suffix cs.reverse
  rw [ends.back, ← List.reverse_prefix] at tail
  simpa using tail

theorem fileNameOf? : fileNameOf? cs = some name := by
  have counts := (component?_eq_name_iff ends.isName.noSlash).mpr ⟨rfl, ends.isName⟩
  rw [Path.fileNameOf?, ends.back, cutLast_append ends.isName.noSlash ends.apart]
  simp [counts]

theorem parentOf? : parentOf? cs = some (dropTail dir).reverse := by
  have some := ends.isName.some
  have noSlash := ends.isName.noSlash
  unfold Path.parentOf?
  rw [ends.back]
  split
  · next none => simp_all
  · next root =>
    have inRoot : ∀ c ∈ name.reverse, c = '/' := by
      intro c mem
      have mem : c ∈ ['/'] := root ▸ List.mem_append_left _ mem
      exact List.mem_singleton.mp mem
    obtain ⟨c, rest, rfl⟩ := List.exists_cons_of_ne_nil some
    obtain rfl := inRoot c (by simp)
    exact absurd List.mem_cons_self noSlash
  · rw [cutLast_append noSlash ends.apart]

end EndsIn

/-! ## Extensions -/

theorem cutExtension_append {extension : List Char} (some : name ≠ []) (noDot : '.' ∉ extension) :
    cutExtension (name ++ '.' :: extension) = (name, .some extension) := by
  have plain := Text.decide_ne_of_not_mem (mt List.mem_reverse.mp noDot)
  have back : (name ++ '.' :: extension).reverse = extension.reverse ++ '.' :: name.reverse := by
    simp
  obtain ⟨c, front, first⟩ := List.exists_cons_of_ne_nil (List.reverse_ne_nil_iff.mpr some)
  have whole : front.reverse ++ [c] = name := by
    rw [← List.reverse_cons, ← first, List.reverse_reverse]
  have stops : ∀ c ∈ ('.' :: name.reverse).head?, decide (c ≠ '.') = false := by simp
  rw [cutExtension, back]
  simp only [Text.takeWhile_run plain stops, Text.dropWhile_run plain stops]
  simp [first, whole]

theorem cutExtension_eq_some_iff {stem extension : List Char} :
    cutExtension name = (stem, some extension) ↔
      stem ≠ [] ∧ '.' ∉ extension ∧ name = stem ++ '.' :: extension := by
  refine ⟨fun cut => ?_, fun ⟨filled, noDot, whole⟩ => whole ▸ cutExtension_append filled noDot⟩
  have whole := List.takeWhile_append_dropWhile (p := (· ≠ '.')) (l := name.reverse)
  have tail : '.' ∉ name.reverse.takeWhile (· ≠ '.') := fun mem => by
    simpa using List.mem_takeWhile_imp mem
  have stops := List.head?_dropWhile_not (· ≠ '.') name.reverse
  unfold cutExtension at cut
  dsimp only at cut
  split at cut <;> simp only [Prod.mk.injEq, reduceCtorEq, and_false] at cut
  next dot front short behind =>
    obtain ⟨rfl, same⟩ := cut
    obtain rfl := Option.some.inj same
    rw [behind] at whole stops
    obtain rfl : dot = '.' := by simpa using stops
    refine ⟨?_, by simpa using tail, ?_⟩
    · rintro none
      obtain rfl := List.reverse_eq_nil_iff.mp none
      exact short rfl
    · refine List.reverse_inj.mp ?_
      simpa using whole.symm

theorem cutExtension_prefix (name : List Char) : (cutExtension name).1 <+: name := by
  unfold cutExtension
  dsimp only
  split
  · exact List.prefix_refl name
  · exact List.prefix_refl name
  · next c stem _ cut =>
    have behind : c :: stem <:+ name.reverse := cut ▸ List.dropWhile_suffix _
    rw [← List.reverse_suffix, List.reverse_reverse]
    exact (List.suffix_cons c stem).trans behind

theorem cutExtension_of_none (bare : (cutExtension name).2 = none) :
    (cutExtension name).1 = name := by
  unfold cutExtension at bare ⊢
  dsimp only at bare ⊢
  split at bare <;> simp_all

theorem IsName.withExtension {extension : List Char} (isName : IsName name)
    (some : extension ≠ []) (plain : ∀ c ∈ extension, c ≠ '/' ∧ c ≠ '.') :
    IsName (name ++ '.' :: extension) := by
  obtain ⟨c, rest, rfl⟩ := List.exists_cons_of_ne_nil some
  have noSlash : '/' ∉ c :: rest := fun slash => (plain _ slash).1 rfl
  refine .of_mem (c := c) ?_ (by simp) (plain c List.mem_cons_self).2
  simpa [isName.noSlash] using noSlash

/-- A name is put behind a directory, with a slash between them unless there is one. -/
theorem child_endsIn {base : Path} {rest : List Char} {new : String}
    (text : base.text.toList = rest.reverse) (dropped : dropTail rest = rest)
    (isName : IsName new.toList) :
    ∃ dir', EndsIn (base.child new).text.toList dir' new.toList ∧ dropTail dir' = rest := by
  have relative : (⟨new⟩ : Path).isAbsolute = false := by
    rw [isAbsolute, beq_eq_false_iff_ne]
    intro slash
    exact isName.noSlash (List.mem_of_mem_head? slash)
  have ends : (∀ c ∈ rest.head?, c = '/') →
      EndsIn (rest.reverse ++ new.toList) rest new.toList := endsIn_append isName
  have endsSlash : EndsIn (('/' :: rest).reverse ++ new.toList) ('/' :: rest) new.toList :=
    endsIn_append isName (by simp)
  rw [child, join, relative, if_neg Bool.false_ne_true, text, List.getLast?_reverse]
  cases rest with
  | nil => exact ⟨[], by simpa using ends, rfl⟩
  | cons c rest =>
    by_cases slash : c = '/'
    · subst slash
      refine ⟨_, ?_, dropped⟩
      simpa [text] using ends
    · refine ⟨'/' :: c :: rest, ?_, dropped⟩
      simpa [slash, String.toList_append, text] using endsSlash

namespace EndsIn

variable (ends : EndsIn p.text.toList dir name)

include ends

theorem fileName? : p.fileName? = some (String.ofList name) := by
  rw [Path.fileName?, ends.fileNameOf?, Option.map_some]

theorem parent? : p.parent? = some ⟨String.ofList (dropTail dir).reverse⟩ := by
  rw [Path.parent?, ends.parentOf?, Option.map_some]

theorem stem? : p.stem? = some (String.ofList (cutExtension name).1) := by
  rw [Path.stem?, ends.fileNameOf?, Option.map_some]

theorem extension? : p.extension? = (cutExtension name).2.map String.ofList := by
  rw [Path.extension?, ends.fileNameOf?, Option.bind_some]

/-- What a path with a new extension is called. -/
theorem setExtension {extension : String} (some : extension ≠ "") :
    (p.setExtension extension).text.toList =
      dir.reverse ++ (cutExtension name).1 ++ '.' :: extension.toList := by
  have filled : extension.isEmpty = false := by simpa using some
  rw [Path.setExtension, ends.fileNameOf?, ends.back,
    cutLast_append ends.isName.noSlash ends.apart]
  simp [filled, String.toList_append]

/-- A new name stands where the old one stood. -/
theorem setFileName {new : String} (isName : IsName new.toList) :
    ∃ dir', EndsIn (p.setFileName new).text.toList dir' new.toList ∧
      dropTail dir' = dropTail dir := by
  rw [Path.setFileName, ends.fileName?, ends.parent?]
  exact child_endsIn String.toList_ofList (dropTail_dropTail dir) isName

end EndsIn

end LivePreview.Path
