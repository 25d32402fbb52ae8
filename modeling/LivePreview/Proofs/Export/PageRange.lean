import LivePreview.Export.PageRange
import LivePreview.Proofs.Text.Cuts
import LivePreview.Proofs.Text.Digits

/-!
# Page ranges as text

A text is read as a page range if it is written as one: a number or two numbers with a dash
between them, perhaps with blanks around each (`Written`).  What is printed of a range is such a
text, and is read as that range (`read_eq_ok_iff_written`).
-/

namespace LivePreview.PageRange

open Text

variable {cs : List Char} {n : Nat} {r : PageRange} {text : String}

/-! ## Numbers -/

/-- A number with blanks around it. -/
def PadsNumber (cs : List Char) (n : Nat) : Prop :=
  ∃ before number after, cs = before ++ number ++ after ∧ Blank before ∧ Blank after ∧
    Spells number n

theorem isWhite_of_isDigit {c : Char} (digit : c.isDigit) : isWhite c = false := by
  have bounds := isDigit_bounds digit
  simp [isWhite]
  omega

theorem not_isWhite_of_spells (spells : Spells cs n) : ∀ c ∈ cs, isWhite c = false := by
  intro c mem
  rcases spells.plus_or_digit c mem with rfl | digit
  · decide
  · exact isWhite_of_isDigit digit

theorem readNumber_eq_ok_iff : readNumber cs = .ok n ↔ PadsNumber cs n := by
  have reads : readNumber cs = .ok n ↔ word? (trim cs) = some n := by
    unfold readNumber
    split
    · next m same => simp [same]
    · next none => simp [none]
  rw [reads, word?_eq_some_iff_spells]
  constructor
  · intro spells
    obtain ⟨before, after, pads, blankBefore, blankAfter⟩ := trim_pads cs
    exact ⟨before, trim cs, after, pads, blankBefore, blankAfter, spells⟩
  · rintro ⟨before, number, after, rfl, blankBefore, blankAfter, spells⟩
    have solid := not_isWhite_of_spells spells
    rw [trim_padded blankBefore blankAfter _ _ spells.ne_nil]
    · exact spells
    · exact fun c first => solid c (List.mem_of_mem_head? first)
    · exact fun c last => solid c (List.mem_of_getLast? last)

theorem padsNumber_toDigits (bound : n < wordLimit) : PadsNumber (Nat.toDigits 10 n) n :=
  ⟨[], _, [], by simp, nofun, nofun, spells_toDigits bound⟩

/-! ## Ranges -/

/-- A range as it may be written.  The dash between two numbers is the first one. -/
inductive Written : List Char → PageRange → Prop
  | page {cs : List Char} {n : Nat} (number : PadsNumber cs n) : Written cs ⟨n, n⟩
  | range {before after : List Char} {start stop : Nat} (noDash : '-' ∉ before)
      (first : PadsNumber before start) (last : PadsNumber after stop) :
      Written (before ++ '-' :: after) ⟨start, stop⟩

theorem PadsNumber.dash_not_mem (pads : PadsNumber cs n) : '-' ∉ cs := by
  obtain ⟨before, number, after, rfl, blankBefore, blankAfter, spells⟩ := pads
  intro mem
  simp only [List.mem_append] at mem
  rcases mem with (inBefore | inNumber) | inAfter
  · exact absurd (blankBefore _ inBefore) (by decide)
  · exact absurd (spells.plus_or_digit _ inNumber) (by decide)
  · exact absurd (blankAfter _ inAfter) (by decide)

theorem PadsNumber.lt (pads : PadsNumber cs n) : n < wordLimit := by
  obtain ⟨-, -, -, -, -, -, -, -, -, -, -, -, below⟩ := pads
  exact below

theorem readNumbers_of_dash {before after : List Char} {start stop : Nat} (noDash : '-' ∉ before) :
    readNumbers (before ++ '-' :: after) = .ok (start, stop) ↔
      PadsNumber before start ∧ PadsNumber after stop := by
  simp only [readNumbers, splitOnce?_append noDash, ← readNumber_eq_ok_iff]
  cases readNumber before <;> cases readNumber after <;> simp [Except.map]

theorem readNumbers_of_noDash {start stop : Nat} (noDash : '-' ∉ cs) :
    readNumbers cs = .ok (start, stop) ↔ PadsNumber cs start ∧ start = stop := by
  simp only [readNumbers, splitOnce?_eq_none_iff.mpr noDash, ← readNumber_eq_ok_iff]
  cases readNumber cs <;> simp +contextual [Except.map]

theorem readNumbers_eq_ok_iff {start stop : Nat} :
    readNumbers cs = .ok (start, stop) ↔ Written cs ⟨start, stop⟩ := by
  by_cases dash : '-' ∈ cs
  · obtain ⟨before, after, rfl, noDash⟩ := List.eq_append_cons_of_mem dash
    rw [readNumbers_of_dash noDash]
    refine ⟨fun ⟨first, last⟩ => .range noDash first last, fun written => ?_⟩
    generalize whole : before ++ '-' :: after = cs at written
    cases written with
    | page number => exact absurd (whole ▸ dash) number.dash_not_mem
    | range noOther first last =>
      have cut := splitOnce?_append noDash after
      rw [whole, splitOnce?_append noOther] at cut
      simp only [Option.some.injEq, Prod.mk.injEq] at cut
      obtain ⟨rfl, rfl⟩ := cut
      exact ⟨first, last⟩
  · rw [readNumbers_of_noDash dash]
    constructor
    · rintro ⟨number, rfl⟩
      exact .page number
    · rintro (⟨number⟩ | ⟨-, -, -⟩)
      · exact ⟨number, rfl⟩
      · simp at dash

theorem make?_eq_some_iff {start stop : Nat} :
    make? start stop = some r ↔ r = ⟨start, stop⟩ ∧ r.Valid := by
  unfold make?
  dsimp only
  split
  · next valid =>
    simp only [Option.some.injEq]
    exact ⟨fun same => ⟨same.symm, same ▸ valid⟩, fun same => same.1.symm⟩
  · next broken =>
    simp only [reduceCtorEq, false_iff, not_and]
    rintro rfl
    exact broken

theorem read_eq_ok_iff : read text = .ok r ↔ Written text.toList r ∧ r.Valid := by
  obtain ⟨start, stop⟩ := r
  constructor
  · intro reads
    unfold read at reads
    split at reads
    · cases reads
    · next numbers =>
      split at reads
      · next made =>
        obtain ⟨rfl, valid⟩ := make?_eq_some_iff.mp made
        cases reads
        exact ⟨readNumbers_eq_ok_iff.mp numbers, valid⟩
      · cases reads
  · rintro ⟨written, valid⟩
    have made := make?_eq_some_iff.mpr ⟨rfl, valid⟩
    simp only [read, readNumbers_eq_ok_iff.mpr written, made]

/-! ## Printing -/

theorem toList_write (start stop : Nat) :
    (write ⟨start, stop⟩).toList = if start = stop then Nat.toDigits 10 start else
      Nat.toDigits 10 start ++ '-' :: Nat.toDigits 10 stop := by
  have digits (n : Nat) : (toString n).toList = Nat.toDigits 10 n := Nat.toList_repr
  have dash : (toString "-").toList = ['-'] := rfl
  simp only [write, isSingle, beq_iff_eq]
  split
  · exact digits _
  · simp only [String.toList_append, digits, dash, List.append_assoc, List.singleton_append]

theorem written_write (valid : r.Valid) (bound : r.stop < wordLimit) :
    Written r.write.toList r := by
  obtain ⟨start, stop⟩ := r
  have first := padsNumber_toDigits (Nat.lt_of_le_of_lt valid.2 bound)
  rw [toList_write]
  split
  · next single =>
    subst single
    exact .page first
  · exact .range first.dash_not_mem first (padsNumber_toDigits bound)

theorem read_of_write (valid : r.Valid) (bound : r.stop < wordLimit) : read r.write = .ok r :=
  read_eq_ok_iff.mpr ⟨written_write valid bound, valid⟩

theorem Written.stop_lt (written : Written cs r) : r.stop < wordLimit := by
  cases written with
  | page number => exact number.lt
  | range noDash first last => exact last.lt

/-- A text is read as a range exactly if the range is valid and the text is one way to write it.
    What is printed of a range is read as that range, and so is what is printed of a text that
    was read. -/
theorem read_eq_ok_iff_written :
    (∀ text r, read text = .ok r ↔ Written text.toList r ∧ r.Valid) ∧
      (∀ r : PageRange, r.Valid → r.stop < wordLimit → read r.write = .ok r) ∧
      ∀ text r, read text = .ok r → read r.write = .ok r := by
  refine ⟨fun _ _ => read_eq_ok_iff, fun _ => read_of_write, fun text r reads => ?_⟩
  obtain ⟨written, valid⟩ := read_eq_ok_iff.mp reads
  exact read_of_write valid written.stop_lt

/-- Blanks, a plus sign and zeros in front are read over. -/
theorem loose_range_read :
    read " 2\u3000-+0018446744073709551615\t" = .ok ⟨2, 18446744073709551615⟩ ∧
      Valid ⟨2, 18446744073709551615⟩ ∧ 18446744073709551615 < wordLimit ∧
      read (write ⟨2, 18446744073709551615⟩) = .ok ⟨2, 18446744073709551615⟩ := by
  obtain ⟨-, prints, -⟩ := read_eq_ok_iff_written
  have valid : Valid ⟨2, 18446744073709551615⟩ := by decide
  have bound : 18446744073709551615 < wordLimit := by decide
  exact ⟨by decide +kernel, valid, bound, prints _ valid bound⟩

end LivePreview.PageRange
