import LivePreview.Text.Digits

/-!
# Numerals

A text is read as a number if it has ASCII digits, perhaps with a plus sign in front, of a number
below the limit (`word?_eq_some_iff_spells`).  So a numeral in the digits of any script is read
only if its digits are those of ASCII (`word?_eq_some_iff`), and what is printed of a number is
read as that number (`word?_toDigits`).
-/

namespace LivePreview.Text

variable {cs : List Char} {n : Nat}

def IsNumeral (cs : List Char) : Prop :=
  cs ≠ [] ∧ ∀ c ∈ cs, isDecimalDigit c

/-- Whether ASCII digits have a value. -/
def Denotes (cs : List Char) (n : Nat) : Prop :=
  (∀ c ∈ cs, c.isDigit) ∧ Nat.ofDigitChars 10 cs 0 = n

theorem digitsValue?_eq_some_iff {acc : Nat} :
    digitsValue? acc cs = some n ↔
      (∀ c ∈ cs, c.isDigit) ∧ Nat.ofDigitChars 10 cs acc = n := by
  induction cs generalizing acc with
  | nil => simp [digitsValue?]
  | cons c cs ih =>
    rw [digitsValue?, Nat.ofDigitChars_cons, List.forall_mem_cons]
    by_cases digit : c.isDigit
    · rw [if_pos digit, ih]
      simp [digit]
    · simp [digit]

theorem isDigit_bounds {c : Char} (digit : c.isDigit) : 0x30 ≤ c.toNat ∧ c.toNat ≤ 0x39 := by
  rw [Char.isDigit, Bool.and_eq_true, decide_eq_true_eq, decide_eq_true_eq] at digit
  exact digit

theorem isDecimalDigit_of_isDigit {c : Char} (digit : c.isDigit) : isDecimalDigit c := by
  have bounds := isDigit_bounds digit
  refine List.any_eq_true.mpr ⟨0x30, by decide, ?_⟩
  simp only [Bool.and_eq_true, decide_eq_true_eq]
  omega

/-! ## Words -/

/-- Whether a text is a word: ASCII digits, perhaps with a plus sign in front of them. -/
def Spells (cs : List Char) (n : Nat) : Prop :=
  ∃ sign digits, (sign = [] ∨ sign = ['+']) ∧ cs = sign ++ digits ∧ digits ≠ [] ∧
    Denotes digits n ∧ n < wordLimit

theorem Spells.ne_nil (spells : Spells cs n) : cs ≠ [] := by
  obtain ⟨sign, digits, -, rfl, some, -⟩ := spells
  simp [some]

theorem Spells.plus_or_digit (spells : Spells cs n) : ∀ c ∈ cs, c = '+' ∨ c.isDigit := by
  obtain ⟨sign, digits, plus, rfl, -, denotes, -⟩ := spells
  intro c mem
  rcases List.mem_append.mp mem with inSign | inDigits
  · rcases plus with rfl | rfl
    · cases inSign
    · exact .inl (List.mem_singleton.mp inSign)
  · exact .inr (denotes.1 c inDigits)

theorem dropPlus_of_not_mem (absent : '+' ∉ cs) : unsigned?.dropPlus cs = cs := by
  unfold unsigned?.dropPlus
  split
  · exact absurd List.mem_cons_self absent
  · rfl

theorem dropPlus_cases (cs : List Char) :
    ∃ sign, (sign = [] ∨ sign = ['+']) ∧ cs = sign ++ unsigned?.dropPlus cs := by
  unfold unsigned?.dropPlus
  split
  · exact ⟨['+'], .inr rfl, rfl⟩
  · exact ⟨[], .inl rfl, rfl⟩

theorem word?_eq_some_iff_denotes :
    word? cs = some n ↔
      unsigned?.dropPlus cs ≠ [] ∧ Denotes (unsigned?.dropPlus cs) n ∧ n < wordLimit := by
  rw [word?, unsigned?]
  by_cases none : unsigned?.dropPlus cs = []
  · simp [none]
  · rw [List.isEmpty_eq_false_iff.mpr none, if_neg Bool.false_ne_true,
      Option.filter_eq_some_iff, digitsValue?_eq_some_iff, decide_eq_true_eq]
    simp only [Denotes, none, ne_eq, not_false_eq_true, true_and]

theorem word?_eq_some_iff_spells : word? cs = some n ↔ Spells cs n := by
  rw [word?_eq_some_iff_denotes]
  constructor
  · rintro ⟨some, denotes, below⟩
    obtain ⟨sign, plus, whole⟩ := dropPlus_cases cs
    exact ⟨sign, _, plus, whole, some, denotes, below⟩
  · rintro ⟨sign, digits, rfl | rfl, rfl, some, denotes, below⟩
    · rw [dropPlus_of_not_mem fun plus => absurd (denotes.1 _ plus) (by decide)]
      exact ⟨some, denotes, below⟩
    · exact ⟨some, denotes, below⟩

theorem word?_eq_some_iff (numeral : IsNumeral cs) :
    word? cs = some n ↔ Denotes cs n ∧ n < wordLimit := by
  have noPlus := dropPlus_of_not_mem fun plus => absurd (numeral.2 '+' plus) (by decide)
  rw [word?_eq_some_iff_denotes, noPlus, and_iff_right numeral.1]

theorem isNumeral_toDigits (n : Nat) : IsNumeral (Nat.toDigits 10 n) := by
  refine ⟨Nat.toDigits_ne_nil, fun c mem => isDecimalDigit_of_isDigit ?_⟩
  exact Nat.isDigit_of_mem_toDigits (by decide) (by decide) mem

theorem denotes_toDigits (n : Nat) : Denotes (Nat.toDigits 10 n) n :=
  ⟨fun _ mem => Nat.isDigit_of_mem_toDigits (by decide) (by decide) mem,
    Nat.ofDigitChars_ten_toDigits⟩

theorem not_mem_toDigits {c : Char} (other : ¬ c.isDigit) (n : Nat) : c ∉ Nat.toDigits 10 n :=
  fun mem => other ((denotes_toDigits n).1 c mem)

theorem spells_toDigits (bound : n < wordLimit) : Spells (Nat.toDigits 10 n) n :=
  ⟨[], _, .inl rfl, rfl, Nat.toDigits_ne_nil, denotes_toDigits n, bound⟩

theorem word?_toDigits (bound : n < wordLimit) : word? (Nat.toDigits 10 n) = some n :=
  word?_eq_some_iff_spells.mpr (spells_toDigits bound)

end LivePreview.Text
