import LivePreview.Diagnostic.Basic
import Mathlib.Data.List.Forall2
import Mathlib.Data.List.Induction
import Mathlib.Data.List.Infix
import Mathlib.Data.List.ReduceOption

/-!
# Collecting what is said

Things that are read one after the other say a diagnostic each, or nothing.  What is collected
of them is each diagnostic that none of those before repeats (`forall₂_kept`); of the others
nothing is lost (`exists_repeats_collect_iff`), and they might as well be missing
(`collect_eraseIdx`).
-/

namespace LivePreview.Diagnostic

variable {d : Diagnostic} {ds : List Diagnostic} {said : List (Option Diagnostic)}

/-- Whether a diagnostic says what another one says, at the same place. -/
def Repeats (old d : Diagnostic) : Prop :=
  old.location.line = d.location.line ∧ old.location.column = d.location.column ∧
    old.message = d.message

instance (old d : Diagnostic) : Decidable (old.Repeats d) :=
  inferInstanceAs (Decidable (_ ∧ _ ∧ _))

theorem Repeats.trans {old d e : Diagnostic} (first : old.Repeats d) (second : d.Repeats e) :
    old.Repeats e :=
  ⟨first.1.trans second.1, first.2.1.trans second.2.1, first.2.2.trans second.2.2⟩

/-- The diagnostics with one more, if one is said that repeats none of them. -/
def extend (ds : List Diagnostic) : Option Diagnostic → List Diagnostic
  | none => ds
  | some d => if ∃ old ∈ ds, old.Repeats d then ds else ds ++ [d]

def collect (said : List (Option Diagnostic)) : List Diagnostic :=
  said.foldl extend []

theorem extend_of_repeats (old : ∃ old ∈ ds, old.Repeats d) : extend ds (some d) = ds :=
  if_pos old

theorem extend_of_new (new : ∀ old ∈ ds, ¬ old.Repeats d) : extend ds (some d) = ds ++ [d] :=
  if_neg fun ⟨old, mem, repeats⟩ => new old mem repeats

@[simp] theorem collect_concat (said : List (Option Diagnostic)) (x : Option Diagnostic) :
    collect (said ++ [x]) = extend (collect said) x :=
  List.foldl_concat ..

theorem exists_repeats_extend_iff {e : Diagnostic} :
    (∃ old ∈ extend ds (some e), old.Repeats d) ↔
      (∃ old ∈ ds, old.Repeats d) ∨ e.Repeats d := by
  by_cases known : ∃ old ∈ ds, old.Repeats e
  · rw [extend_of_repeats known]
    refine ⟨.inl, fun repeats => repeats.elim id fun same => ?_⟩
    obtain ⟨old, mem, first⟩ := known
    exact ⟨old, mem, first.trans same⟩
  · have new : ∀ old ∈ ds, ¬ old.Repeats e := fun old mem same => known ⟨old, mem, same⟩
    rw [extend_of_new new]
    simp only [List.mem_append, List.mem_singleton, or_and_right, exists_or, exists_eq_left]

/-- What is collected repeats a diagnostic if something that was said does. -/
theorem exists_repeats_collect_iff (said : List (Option Diagnostic)) (d : Diagnostic) :
    (∃ old ∈ collect said, old.Repeats d) ↔ ∃ e ∈ said.reduceOption, e.Repeats d := by
  induction said using List.reverseRecOn with
  | nil => simp [collect]
  | append_singleton said x ih =>
    rw [collect_concat, List.reduceOption_append]
    cases x with
    | none => simpa [extend] using ih
    | some e =>
      rw [exists_repeats_extend_iff, ih]
      simp [or_and_right, exists_or]

theorem extend_cases (ds : List Diagnostic) (x : Option Diagnostic) :
    extend ds x = ds ∨ ∃ d, x = some d ∧ extend ds x = ds ++ [d] := by
  cases x with
  | none => exact .inl rfl
  | some d =>
    by_cases known : ∃ old ∈ ds, old.Repeats d
    · exact .inl (extend_of_repeats known)
    · exact .inr ⟨d, rfl, extend_of_new fun old mem same => known ⟨old, mem, same⟩⟩

theorem collect_prefix_append (said more : List (Option Diagnostic)) :
    collect said <+: collect (said ++ more) := by
  induction more using List.reverseRecOn with
  | nil => rw [List.append_nil]
  | append_singleton more x ih =>
    rw [← List.append_assoc, collect_concat]
    refine ih.trans ?_
    rcases extend_cases (collect (said ++ more)) x with same | ⟨d, -, longer⟩
    · rw [same]
    · rw [longer]
      exact List.prefix_append ..

theorem some_mem_of_mem_collect (mem : d ∈ collect said) : some d ∈ said := by
  induction said using List.reverseRecOn with
  | nil => cases mem
  | append_singleton said x ih =>
    rw [collect_concat] at mem
    rcases extend_cases (collect said) x with same | ⟨e, rfl, longer⟩
    · exact List.mem_append_left _ (ih (same ▸ mem))
    · rw [longer] at mem
      rcases List.mem_append.mp mem with old | last
      · exact List.mem_append_left _ (ih old)
      · exact List.mem_append_right _ (List.mem_singleton.mpr (by rw [List.mem_singleton.mp last]))

/-- Where nothing is repeated everything is collected. -/
theorem collect_map_some (distinct : ds.Pairwise fun old d => ¬ old.Repeats d) :
    collect (ds.map some) = ds := by
  induction ds using List.reverseRecOn with
  | nil => rfl
  | append_singleton ds d ih =>
    obtain ⟨before, -, new⟩ := List.pairwise_append.mp distinct
    rw [List.map_append, List.map_singleton, collect_concat, ih before]
    exact extend_of_new fun old mem => new old mem d (List.mem_singleton_self d)

/-- A diagnostic without its hints. -/
def bare (d : Diagnostic) : Diagnostic :=
  { d with hints := [] }

theorem map_bare_extend (ds : List Diagnostic) (x : Option Diagnostic) :
    (extend ds x).map bare = extend (ds.map bare) (x.map bare) := by
  cases x with
  | none => rfl
  | some d =>
    by_cases known : ∃ old ∈ ds, old.Repeats d
    · obtain ⟨old, mem, same⟩ := known
      rw [extend_of_repeats ⟨old, mem, same⟩, Option.map_some, extend_of_repeats]
      exact ⟨bare old, List.mem_map_of_mem mem, same⟩
    · have new : ∀ old ∈ ds, ¬ old.Repeats d := fun old mem same => known ⟨old, mem, same⟩
      have newBare : ∀ old ∈ ds.map bare, ¬ old.Repeats (bare d) := List.forall_mem_map.mpr new
      rw [extend_of_new new, Option.map_some, extend_of_new newBare, List.map_append,
        List.map_singleton]

/-! ## What is new -/

/-- Whether something says what nothing before it says. -/
def IsNew (before : List (Option Diagnostic)) (x : Option Diagnostic) : Prop :=
  ∃ d ∈ x, ∀ e ∈ before.reduceOption, ¬ e.Repeats d

instance (before : List (Option Diagnostic)) : DecidablePred (IsNew before) :=
  fun x => inferInstanceAs (Decidable (∃ d ∈ x, _))

theorem extend_of_isNew (new : IsNew said (some d)) :
    extend (collect said) (some d) = collect said ++ [d] := by
  obtain ⟨d', here, alone⟩ := new
  obtain rfl := Option.some.inj here
  refine extend_of_new fun old mem repeats => ?_
  obtain ⟨e, mem, same⟩ := (exists_repeats_collect_iff said d).mp ⟨old, mem, repeats⟩
  exact alone e mem same

theorem extend_of_not_isNew {x : Option Diagnostic} (known : ¬ IsNew said x) :
    extend (collect said) x = collect said := by
  cases x with
  | none => rfl
  | some d =>
    refine extend_of_repeats ((exists_repeats_collect_iff said d).mpr ?_)
    by_contra none
    exact known ⟨d, rfl, fun e mem same => none ⟨e, mem, same⟩⟩

/-- The places where something new is said. -/
def kept (said : List (Option Diagnostic)) : List Nat :=
  (List.range said.length).filter fun k => ∃ x ∈ said[k]?, IsNew (said.take k) x

theorem mem_kept_iff {k : Nat} : k ∈ kept said ↔ ∃ x ∈ said[k]?, IsNew (said.take k) x := by
  simp only [kept, List.mem_filter, List.mem_range, decide_eq_true_eq]
  refine ⟨And.right, fun found => ⟨?_, found⟩⟩
  obtain ⟨x, here, -⟩ := found
  exact (List.getElem?_eq_some_iff.mp here).1

theorem kept_pairwise (said : List (Option Diagnostic)) : (kept said).Pairwise (· < ·) :=
  List.Pairwise.filter _ List.pairwise_lt_range

theorem kept_concat (said : List (Option Diagnostic)) (x : Option Diagnostic) :
    kept (said ++ [x]) = kept said ++ if IsNew said x then [said.length] else [] := by
  have older : ∀ k ∈ List.range said.length,
      decide (∃ y ∈ (said ++ [x])[k]?, IsNew ((said ++ [x]).take k) y) =
        decide (∃ y ∈ said[k]?, IsNew (said.take k) y) := by
    intro k mem
    have inside := List.mem_range.mp mem
    rw [List.getElem?_append_left inside, List.take_append_of_le_length (Nat.le_of_lt inside)]
  rw [kept, List.length_append, List.length_singleton, List.range_succ, List.filter_append,
    List.filter_congr older, kept]
  simp [List.filter_cons]

/-- What is collected is, in order, what was said at the places that are kept. -/
theorem forall₂_kept (said : List (Option Diagnostic)) :
    List.Forall₂ (fun k d => said[k]? = some (some d)) (kept said) (collect said) := by
  induction said using List.reverseRecOn with
  | nil => exact .nil
  | append_singleton said x ih =>
    have older : List.Forall₂ (fun k d => (said ++ [x])[k]? = some (some d)) (kept said)
        (collect said) := by
      refine ih.imp fun k d here => ?_
      have inside := (List.getElem?_eq_some_iff.mp here).1
      rw [List.getElem?_append_left inside, here]
    rw [kept_concat, collect_concat]
    by_cases new : IsNew said x
    · rw [if_pos new]
      obtain ⟨d, here, -⟩ := id new
      obtain rfl : x = some d := here
      rw [extend_of_isNew new]
      exact List.rel_append older (.cons List.getElem?_concat_length .nil)
    · rw [if_neg new, List.append_nil, extend_of_not_isNew new]
      exact older

/-- What says nothing new can be left out. -/
theorem collect_eraseIdx {k : Nat} (notKept : k ∉ kept said) :
    collect (said.eraseIdx k) = collect said := by
  by_cases inside : k < said.length
  · have known : ¬ IsNew (said.take k) said[k] := fun new =>
      notKept (mem_kept_iff.mpr ⟨_, List.getElem?_eq_getElem inside, new⟩)
    have same := extend_of_not_isNew known
    rw [collect] at same
    conv_rhs => rw [← List.take_append_drop k said, List.drop_eq_getElem_cons inside]
    rw [List.eraseIdx_eq_take_drop_succ, collect, collect, List.foldl_append, List.foldl_append,
      List.foldl_cons, same]
  · rw [List.eraseIdx_of_length_le (Nat.le_of_not_lt inside)]

end LivePreview.Diagnostic
