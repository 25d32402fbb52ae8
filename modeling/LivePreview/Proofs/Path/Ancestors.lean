import LivePreview.Proofs.Path.Components
import Mathlib.Data.List.Induction
import Mathlib.Data.List.Infix
import Mathlib.Data.List.Nodup
import Mathlib.Logic.Relation

/-!
# The directories above a path

The ancestors of an absolute path are the path itself and the directories above it, up to the
root.  They are listed once each, and the deepest first: their components are the beginnings of
those of the path (`ancestors_components`).
-/

namespace LivePreview.Path

variable {p q dir other : Path}

/-- Whether a directory is the path itself or one above it, from parent to parent. -/
def Encloses (dir p : Path) : Prop :=
  Relation.ReflTransGen (fun below above => below.parent? = some above) p dir

theorem encloses_iff : Encloses dir p ↔ p = dir ∨ ∃ q, p.parent? = some q ∧ Encloses dir q :=
  Relation.ReflTransGen.cases_head_iff

theorem encloses_of_top (top : p.parent? = none) : Encloses dir p ↔ dir = p := by
  rw [encloses_iff, top]
  simp [eq_comm]

theorem mem_ancestors_go {n : Nat} (enough : p.text.toList.length ≤ n) :
    dir ∈ ancestors.go n p ↔ Encloses dir p := by
  induction n generalizing p with
  | zero =>
    have top : p.parent? = none := by
      rw [parent?, List.eq_nil_of_length_eq_zero (Nat.le_zero.mp enough)]
      rfl
    rw [ancestors.go, List.mem_singleton, encloses_of_top top]
  | succ n ih =>
    unfold ancestors.go
    split
    · next top => rw [List.mem_singleton, encloses_of_top top]
    · next q above =>
      have shorter := length_parent? above
      rw [List.mem_cons, ih (by omega), encloses_iff (p := p), above]
      simp [eq_comm]

theorem mem_ancestors : dir ∈ p.ancestors ↔ Encloses dir p :=
  mem_ancestors_go (Nat.le_of_eq String.length_toList)

/-! ## Beginnings -/

section Beginnings

variable {α : Type} {l init : List α}

/-- The beginnings of a list but for the empty one, longest first. -/
def beginnings [DecidableEq α] (l : List α) : List (List α) :=
  (l.inits.filter (· ≠ [])).reverse

variable [DecidableEq α]

theorem beginnings_concat (l : List α) (a : α) :
    beginnings (l ++ [a]) = (l ++ [a]) :: beginnings l := by
  have longer : (l ++ [a]).inits = l.inits ++ [l ++ [a]] := by simp [List.inits_append]
  rw [beginnings, longer, List.filter_append, List.reverse_append, beginnings]
  simp

theorem mem_beginnings : init ∈ beginnings l ↔ init ≠ [] ∧ init <+: l := by
  rw [beginnings, List.mem_reverse, List.mem_filter, List.mem_inits, decide_eq_true_eq, and_comm]

theorem beginnings_pairwise (l : List α) :
    (beginnings l).Pairwise fun a b => b.length < a.length := by
  induction l using List.reverseRecOn with
  | nil => exact .nil
  | append_singleton l a ih =>
    rw [beginnings_concat]
    refine .cons (fun init begins => ?_) ih
    have shorter := (mem_beginnings.mp begins).2.length_le
    rw [List.length_append, List.length_singleton]
    omega

end Beginnings

theorem ancestors_go_components {n : Nat} (enough : p.text.toList.length ≤ n)
    (rooted : p.components.head? = some .root) :
    (ancestors.go n p).map components = beginnings p.components := by
  induction n generalizing p with
  | zero =>
    rw [components, List.eq_nil_of_length_eq_zero (Nat.le_zero.mp enough)] at rooted
    cases rooted
  | succ n ih =>
    unfold ancestors.go
    split
    · next top =>
      rcases components_of_parent?_none top with none | root
      · rw [none] at rooted
        cases rooted
      · rw [List.map_singleton, root]
        rfl
    · next q above =>
      have shorter := length_parent? above
      obtain ⟨c, notRoot, cut⟩ := components_parent? above
      have rooted' := rooted_of_concat notRoot (cut ▸ rooted)
      rw [List.map_cons, ih (by omega) rooted', cut, beginnings_concat]

/-- Each of the beginnings of an absolute path is tried once, and the longest first. -/
theorem ancestors_components (absolute : p.isAbsolute = true) :
    p.ancestors.map components = beginnings p.components := by
  obtain ⟨cs, -, parts⟩ := components_of_isAbsolute absolute
  exact ancestors_go_components (Nat.le_of_eq String.length_toList) (by rw [parts]; rfl)

theorem ancestors_pairwise (absolute : p.isAbsolute = true) :
    p.ancestors.Pairwise fun a b => b.components.length < a.components.length := by
  have ordered := beginnings_pairwise p.components
  rw [← ancestors_components absolute] at ordered
  exact List.pairwise_map.mp ordered

/-- The directories that enclose an absolute path are told by their components: those of the path
    up to one of them. -/
theorem existsUnique_encloses_iff (absolute : p.isAbsolute = true) {init : List Component} :
    (∃! dir, Encloses dir p ∧ dir.components = init) ↔ init ≠ [] ∧ init <+: p.components := by
  rw [← mem_beginnings, ← ancestors_components absolute, List.mem_map]
  constructor
  · rintro ⟨dir, ⟨encloses, parts⟩, -⟩
    exact ⟨dir, mem_ancestors.mpr encloses, parts⟩
  · rintro ⟨dir, mem, parts⟩
    have once : (p.ancestors.map components).Nodup := by
      rw [List.nodup_iff_pairwise_ne, List.pairwise_map]
      exact (ancestors_pairwise absolute).imp fun shorter same => by simp [same] at shorter
    refine ⟨dir, ⟨mem_ancestors.mp mem, parts⟩, ?_⟩
    rintro other ⟨encloses, same⟩
    exact List.inj_on_of_nodup_map once (mem_ancestors.mpr encloses) mem (same.trans parts.symm)

end LivePreview.Path
