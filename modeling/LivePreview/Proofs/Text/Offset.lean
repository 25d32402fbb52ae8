import LivePreview.Text.Offset
import Mathlib.Data.Nat.Count
import Mathlib.Data.String.Basic

/-!
# Characters and bytes

The characters before a byte position are those that end there or earlier
(`charOffset_eq_count`).
-/

namespace LivePreview.Text

/-- The number of bytes that the first `count` characters of a text take up. -/
def bytesOf (text : String) (count : Nat) : Nat :=
  (String.ofList (text.toList.take count)).utf8ByteSize

theorem length_le_utf8ByteSize (text : String) : text.length ≤ text.utf8ByteSize := by
  rw [← String.length_toList, ← String.utf8Len_toList]
  induction text.toList with
  | nil => simp
  | cons c cs inductionHypothesis =>
    have size := c.utf8Size_pos
    rw [String.utf8Len_cons, List.length_cons]
    omega

theorem le_charsWithin_iff {cs : List Char} {bytes count : Nat} (within : count ≤ cs.length) :
    count ≤ charsWithin cs bytes ↔ String.utf8Len (cs.take count) ≤ bytes := by
  induction cs generalizing bytes count with
  | nil =>
    obtain rfl := Nat.le_zero.mp within
    simp
  | cons c cs inductionHypothesis =>
    cases count with
    | zero => simp
    | succ count =>
      rw [List.take_succ_cons, String.utf8Len_cons]
      unfold charsWithin
      split
      · next fits =>
        rw [Nat.add_le_add_iff_right, inductionHypothesis (Nat.le_of_succ_le_succ within)]
        omega
      · next tooLong => omega

theorem charOffset_le (text : String) (bytes : Nat) : charOffset text bytes ≤ text.length :=
  charsWithin_le_length text.toList bytes

/-- So many characters lie before a byte position as end there or earlier. -/
theorem le_charOffset_iff {text : String} {bytes count : Nat} (within : count ≤ text.length) :
    count ≤ charOffset text bytes ↔ bytesOf text count ≤ bytes := by
  rw [← String.length_toList] at within
  rw [charOffset, le_charsWithin_iff within, bytesOf, String.utf8ByteSize_ofList]

/-- The offset of a byte position is the number of the characters that end there or earlier. -/
theorem charOffset_eq_count (text : String) (bytes : Nat) :
    charOffset text bytes = Nat.count (fun i => bytesOf text (i + 1) ≤ bytes) text.length := by
  obtain ⟨after, all⟩ := Nat.exists_eq_add_of_le (charOffset_le text bytes)
  have ends {i : Nat} (within : i < text.length) :
      i < charOffset text bytes ↔ bytesOf text (i + 1) ≤ bytes := le_charOffset_iff within
  rw [all, Nat.count_add, Nat.count_of_forall, Nat.count_of_forall_not, Nat.add_zero]
  · exact fun i beyond fits => absurd ((ends (by omega)).mpr fits) (by omega)
  · exact fun i before => (ends (by omega)).mp before

/-! ## Boundaries -/

theorem bytesOf_charOffset_le (text : String) (bytes : Nat) :
    bytesOf text (charOffset text bytes) ≤ bytes :=
  (le_charOffset_iff (charOffset_le text bytes)).mp (Nat.le_refl _)

theorem charOffset_mono (text : String) : Monotone (charOffset text) := by
  intro bytes more le
  have fits := Nat.le_trans (bytesOf_charOffset_le text bytes) le
  exact (le_charOffset_iff (charOffset_le text bytes)).mpr fits

/-- Every character takes up at least one byte. -/
theorem bytesOf_lt_succ {text : String} {count : Nat} (within : count < text.length) :
    bytesOf text count < bytesOf text (count + 1) := by
  rw [← String.length_toList] at within
  have size := (text.toList[count]).utf8Size_pos
  simp only [bytesOf, String.utf8ByteSize_ofList]
  rw [← List.take_append_getElem within, String.utf8Len_append, String.utf8Len_cons,
    String.utf8Len_nil]
  omega

theorem charOffset_bytesOf {text : String} {count : Nat} (within : count ≤ text.length) :
    charOffset text (bytesOf text count) = count := by
  have below : count ≤ charOffset text (bytesOf text count) :=
    (le_charOffset_iff within).mpr (Nat.le_refl _)
  have inside := charOffset_le text (bytesOf text count)
  by_contra differs
  -- one more character would fit into the same bytes
  have longer : count + 1 ≤ charOffset text (bytesOf text count) := by omega
  have fits := (le_charOffset_iff (by omega)).mp longer
  have more : count < text.length := by omega
  have wider := bytesOf_lt_succ more
  omega

/-- The offset of a byte position is adjoint to the bytes that are in front of an offset: it
    reaches the offsets whose bytes fit in front of the position.  So it grows with the position
    up to the length of the text, and gives back the offset of each boundary of characters. -/
theorem charOffset_adjoint (text : String) :
    (∀ bytes count, count ≤ text.length →
        (count ≤ charOffset text bytes ↔ bytesOf text count ≤ bytes)) ∧
      Monotone (charOffset text) ∧
      (∀ bytes, charOffset text bytes ≤ text.length) ∧
      ∀ count, count ≤ text.length → charOffset text (bytesOf text count) = count := by
  refine ⟨fun bytes count within => ?_, charOffset_mono text, charOffset_le text, ?_⟩
  · exact le_charOffset_iff within
  · exact fun count within => charOffset_bytesOf within

/-- A position inside the third character, and the boundary behind it. -/
theorem offset_inside_character :
    3 ≤ "aé€b".length ∧
      (3 ≤ charOffset "aé€b" 4 ↔ bytesOf "aé€b" 3 ≤ 4) ∧ charOffset "aé€b" 4 = 2 ∧
      charOffset "aé€b" (bytesOf "aé€b" 3) = 3 ∧ bytesOf "aé€b" 3 = 6 := by
  have within : 3 ≤ "aé€b".length := by decide
  obtain ⟨adjoint, -, -, inverse⟩ := charOffset_adjoint "aé€b"
  exact ⟨within, adjoint 4 3 within, by decide, inverse 3 within, by decide⟩

end LivePreview.Text
