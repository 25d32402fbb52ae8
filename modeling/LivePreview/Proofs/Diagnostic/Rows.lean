import LivePreview.Diagnostic.ShortForm
import LivePreview.Proofs.Text.Lines

/-!
# Rows of a report

Colours never reach over a line feed, so the lines of a report are those of its rows, one by
one (`lines_dropColours_flatten`); each row holds at most one line (`rowLines_cases`).
-/

namespace LivePreview.ShortForm

open Text

variable {cs as bs rest row : List Char} {rs : List (List Char)}

/-! ## Colours and line feeds -/

theorem afterColour?_append_feed (as bs : List Char) :
    afterColour? (as ++ '\n' :: bs) = (afterColour? as).map (· ++ '\n' :: bs) := by
  fun_induction afterColour? as with
  | case1 rest => rfl
  | case2 c rest notEnd part ih =>
    rw [List.cons_append, afterColour?, if_pos part, ih]
    exact fun same => notEnd same
  | case3 c rest notEnd part =>
    rw [List.cons_append, afterColour?, if_neg part]
    · rfl
    · exact fun same => notEnd same
  | case4 => rfl

theorem afterColour?_subset (colour : afterColour? cs = some rest) : rest ⊆ cs := by
  fun_induction afterColour? cs with
  | case1 tail =>
    obtain rfl := Option.some.inj colour
    exact List.subset_cons_self ..
  | case2 c tail _ _ ih => exact List.subset_cons_of_subset _ (ih colour)
  | case3 => cases colour
  | case4 => cases colour

theorem dropColours_cons {c : Char} (plain : ∀ rest, c = '\x1b' → cs ≠ '[' :: rest) :
    dropColours (c :: cs) = c :: dropColours cs := by
  rw [dropColours]
  exact plain

theorem dropColours_colour (colour : afterColour? cs = some rest) :
    dropColours ('\x1b' :: '[' :: cs) = dropColours rest := by
  rw [dropColours]
  split
  · next found => rw [Option.some.inj (colour.symm.trans found)]
  · next none =>
    rw [colour] at none
    cases none

theorem dropColours_noColour (none : afterColour? cs = none) :
    dropColours ('\x1b' :: '[' :: cs) = '\x1b' :: dropColours ('[' :: cs) := by
  rw [dropColours]
  split
  · next found =>
    rw [none] at found
    cases found
  · rfl

theorem dropColours_append_feed (as bs : List Char) :
    dropColours (as ++ '\n' :: bs) = dropColours as ++ '\n' :: dropColours bs := by
  fun_induction dropColours as with
  | case1 => exact dropColours_cons nofun
  | case2 cs rest colour _ ih =>
    have longer := afterColour?_append_feed cs bs
    rw [colour] at longer
    exact (dropColours_colour longer).trans ih
  | case3 cs none ih =>
    have longer := afterColour?_append_feed cs bs
    rw [none] at longer
    exact (dropColours_noColour longer).trans (congrArg _ ih)
  | case4 c cs plain ih =>
    refine (dropColours_cons fun rest escape bracket => ?_).trans (congrArg _ ih)
    cases cs with
    | nil => exact absurd (List.cons.inj bracket).1 (by decide)
    | cons d cs => exact plain cs escape (by rw [(List.cons.inj bracket).1])

theorem dropColours_subset (cs : List Char) : dropColours cs ⊆ cs := by
  fun_induction dropColours cs with
  | case1 => exact List.Subset.refl _
  | case2 cs rest colour _ ih =>
    intro c mem
    have later := afterColour?_subset colour (ih mem)
    exact List.mem_cons_of_mem _ (List.mem_cons_of_mem _ later)
  | case3 cs none ih => exact List.cons_subset_cons _ ih
  | case4 c cs plain ih => exact List.cons_subset_cons _ ih

theorem dropColours_of_plain (plain : '\x1b' ∉ cs) : dropColours cs = cs := by
  induction cs with
  | nil => rw [dropColours]
  | cons c cs ih =>
    simp only [List.mem_cons, not_or] at plain
    rw [dropColours_cons fun _ escape => absurd escape.symm plain.1, ih plain.2]

/-! ## Rows and lines -/

/-- The lines of a row; there is at most one. -/
def rowLines (row : List Char) : List (List Char) :=
  lines (dropColours row)

@[simp] theorem rowLines_nil : rowLines [] = [] := by
  rw [rowLines, dropColours]
  rfl

theorem rowLines_append_feed (line : List Char) :
    rowLines (line ++ ['\n']) = (splitOn '\n' (dropColours line)).map dropReturn := by
  rw [rowLines, dropColours_append_feed, dropColours, lines_append, lines_nil, List.append_nil]

theorem lines_dropColours_flatten (areRows : AreRows rs) :
    lines (dropColours rs.flatten) = rs.flatMap rowLines := by
  induction rs with
  | nil => exact rowLines_nil
  | cons row rs ih =>
    rw [List.flatten_cons, List.flatMap_cons, ← ih (areRows.sublist (List.sublist_cons_self ..))]
    cases rs with
    | nil =>
      rw [List.flatten_nil, List.append_nil, dropColours, lines_nil, List.append_nil, rowLines]
    | cons next rs =>
      have ended := List.rel_of_pairwise_cons areRows.ended List.mem_cons_self
      obtain ⟨line, rfl⟩ := List.getLast?_eq_some_iff.mp ended
      rw [List.append_assoc, List.singleton_append, dropColours_append_feed, lines_append,
        rowLines_append_feed]

theorem rowLines_cases (plain : '\n' ∉ row.dropLast) :
    rowLines row = [] ∨ ∃ line, rowLines row = [line] := by
  by_cases ended : row.getLast? = some '\n'
  · obtain ⟨line, rfl⟩ := List.getLast?_eq_some_iff.mp ended
    rw [List.dropLast_concat] at plain
    refine .inr ⟨dropReturn (dropColours line), ?_⟩
    rw [rowLines_append_feed, splitOn_of_not_mem fun mem => plain (dropColours_subset line mem),
      List.map_singleton]
  · have none : '\n' ∉ row := by
      intro mem
      rcases List.eq_nil_or_concat row with rfl | ⟨line, c, rfl⟩
      · exact absurd mem List.not_mem_nil
      · rw [List.concat_eq_append] at *
        rw [List.dropLast_concat] at plain
        rcases List.mem_append.mp mem with inside | last
        · exact plain inside
        · exact ended (by rw [List.getLast?_concat, List.mem_singleton.mp last])
    rw [rowLines, lines, splitOn_of_not_mem fun mem => none (dropColours_subset row mem)]
    unfold linesOfPieces
    split
    · exact .inl rfl
    · exact .inr ⟨_, rfl⟩

end LivePreview.ShortForm
