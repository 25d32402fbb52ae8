import LivePreview.Text.Basic
import Mathlib.Data.List.TakeDrop
import Mathlib.Data.List.TakeWhile

/-!
# Cuts of a text

Trimming takes the blanks off both ends of a text and nothing else (`trim_pads`, `trim_padded`),
and a cut at a separator is made at the first one (`splitOnce?_eq_some_iff`).  A piece occurs in a
text where it is an infix of it (`occursIn_iff`).
-/

namespace LivePreview.Text

variable {cs piece before core after : List Char} {c sep : Char}

/-! ## Runs

A run of characters of one kind reaches up to the first character of another kind. -/

section Runs

variable {kind : Char → Bool} {run rest : List Char}

theorem takeWhile_run (inside : ∀ c ∈ run, kind c) (stops : ∀ c ∈ rest.head?, kind c = false) :
    (run ++ rest).takeWhile kind = run := by
  rw [List.takeWhile_append_of_pos inside]
  cases rest with
  | nil => simp
  | cons c rest => simp [stops c rfl]

theorem dropWhile_run (inside : ∀ c ∈ run, kind c) (stops : ∀ c ∈ rest.head?, kind c = false) :
    (run ++ rest).dropWhile kind = rest := by
  rw [List.dropWhile_append_of_pos inside]
  cases rest with
  | nil => rfl
  | cons c rest => simp [stops c rfl]

theorem decide_ne_of_not_mem (absent : sep ∉ run) : ∀ c ∈ run, decide (c ≠ sep) = true := by
  intro c mem
  refine decide_eq_true ?_
  rintro rfl
  exact absent mem

end Runs

/-! ## White space -/

def Blank (cs : List Char) : Prop :=
  ∀ c ∈ cs, isWhite c

/-- What stands between blanks is what a trimmed text keeps. -/
theorem trim_padded (blankBefore : Blank before) (blankAfter : Blank after)
    (first : ∀ c ∈ core.head?, isWhite c = false)
    (last : ∀ c ∈ core.getLast?, isWhite c = false) (some : core ≠ []) :
    trim (before ++ core ++ after) = core := by
  have start : trimStart (before ++ core ++ after) = core ++ after := by
    rw [trimStart, List.append_assoc]
    refine dropWhile_run blankBefore ?_
    obtain ⟨c, rest, rfl⟩ := List.exists_cons_of_ne_nil some
    simpa using first
  have blankBack : Blank after.reverse := fun c mem => blankAfter c (List.mem_reverse.mp mem)
  rw [trim, start, trimEnd, List.reverse_append, dropWhile_run blankBack, List.reverse_reverse]
  rw [List.head?_reverse]
  exact last

/-- A text is what is left of it when it is trimmed, with blanks around. -/
theorem trim_pads (cs : List Char) :
    ∃ before after, cs = before ++ trim cs ++ after ∧ Blank before ∧ Blank after := by
  refine ⟨cs.takeWhile isWhite, ((trimStart cs).reverse.takeWhile isWhite).reverse, ?_, ?_, ?_⟩
  · have back := List.takeWhile_append_dropWhile (p := isWhite) (l := (trimStart cs).reverse)
    have whole : trimEnd (trimStart cs) ++
        ((trimStart cs).reverse.takeWhile isWhite).reverse = trimStart cs := by
      rw [trimEnd, ← List.reverse_append, back, List.reverse_reverse]
    rw [trim, List.append_assoc, whole, trimStart, List.takeWhile_append_dropWhile]
  · exact fun c mem => List.mem_takeWhile_imp mem
  · exact fun c mem => List.mem_takeWhile_imp (List.mem_reverse.mp mem)

/-! ## Separators -/

theorem splitOnce?_append (absent : sep ∉ before) (after : List Char) :
    splitOnce? sep (before ++ sep :: after) = some (before, after) := by
  induction before with
  | nil => simp [splitOnce?]
  | cons c before ih =>
    simp only [List.mem_cons, not_or] at absent
    simp [splitOnce?, Ne.symm absent.1, ih absent.2]

/-- A text is cut at the first separator. -/
theorem splitOnce?_eq_some_iff :
    splitOnce? sep cs = some (before, after) ↔ cs = before ++ sep :: after ∧ sep ∉ before := by
  refine ⟨fun cut => ?_, fun ⟨whole, absent⟩ => whole ▸ splitOnce?_append absent after⟩
  induction cs generalizing before with
  | nil => simp [splitOnce?] at cut
  | cons c cs ih =>
    rw [splitOnce?] at cut
    split at cut
    · next here =>
      simp only [Option.some.injEq, Prod.mk.injEq] at cut
      obtain ⟨rfl, rfl⟩ := cut
      simp [here]
    · next other =>
      obtain ⟨⟨front, rest⟩, later, same⟩ := Option.map_eq_some_iff.mp cut
      simp only [Prod.mk.injEq] at same
      obtain ⟨rfl, rfl⟩ := same
      obtain ⟨rfl, absent⟩ := ih later
      simp [Ne.symm other, absent]

theorem splitOnce?_eq_none_iff : splitOnce? sep cs = none ↔ sep ∉ cs := by
  constructor
  · intro uncut mem
    obtain ⟨before, after, rfl, absent⟩ := List.eq_append_cons_of_mem mem
    rw [splitOnce?_append absent] at uncut
    cases uncut
  · intro absent
    rw [Option.eq_none_iff_forall_ne_some]
    rintro ⟨before, after⟩ cut
    obtain ⟨rfl, -⟩ := splitOnce?_eq_some_iff.mp cut
    exact absent (List.mem_append_right _ List.mem_cons_self)

/-! ## Pieces -/

theorem occursIn_iff : occursIn piece cs = true ↔ piece <:+: cs := by
  induction cs with
  | nil => cases piece <;> simp [occursIn, before?]
  | cons c cs ih =>
    rw [List.infix_cons_iff, ← ih, ← List.isPrefixOf_iff_prefix]
    rw [occursIn, before?]
    split
    · next here => simp [here]
    · next elsewhere => simp [elsewhere, occursIn]

/-- A piece without the separator stands on one side of it. -/
theorem infix_append_cons (absent : sep ∉ piece) (inside : piece <:+: before ++ sep :: after) :
    piece <:+: before ∨ piece <:+: after := by
  obtain ⟨front, back, whole⟩ := inside
  rcases List.append_eq_append_iff.mp whole with ⟨rest, rfl, -⟩ | ⟨rest, reaches, behind⟩
  · exact .inl ⟨front, rest, rfl⟩
  · cases rest with
    | nil =>
      rw [List.append_nil] at reaches
      exact .inl ⟨front, [], by rw [List.append_nil, reaches]⟩
    | cons d rest =>
      obtain ⟨rfl, rfl⟩ := List.cons.inj behind
      -- the piece ends behind the separator, so it also starts there
      rcases List.append_eq_append_iff.mp reaches with ⟨more, -, cut⟩ | ⟨more, -, cut⟩
      · exact absurd (cut ▸ List.mem_append_right _ List.mem_cons_self) absent
      · cases more with
        | nil =>
          have begins : piece = sep :: rest := cut.symm
          exact absurd (begins ▸ List.mem_cons_self) absent
        | cons e more =>
          obtain ⟨rfl, rfl⟩ := List.cons.inj cut
          exact .inr ⟨more, back, rfl⟩

end LivePreview.Text
