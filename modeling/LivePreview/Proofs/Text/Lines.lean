import LivePreview.Text.Basic
import Mathlib.Data.List.Basic

/-!
# Lines and rows

The lines of a text that is cut behind a line feed are those of its two parts
(`lines_append`).  A *row* of a text is a line as it is written, with the line feed that ends
it; put together the rows are the text again (`flatten_rows`).
-/

namespace LivePreview.Text

/-! ## Lines -/

variable {cs as bs line : List Char}

theorem splitOn_append (sep : Char) (as bs : List Char) :
    splitOn sep (as ++ sep :: bs) = splitOn sep as ++ splitOn sep bs := by
  induction as with
  | nil => simp [splitOn]
  | cons c as ih =>
    by_cases here : c = sep
    · simp [splitOn, here, ih]
    · cases cut : splitOn sep as with
      | nil => exact absurd cut (splitOn_ne_nil sep as)
      | cons piece rest => simp [splitOn, here, ih, cut]

theorem splitOn_of_not_mem {sep : Char} (absent : sep ∉ cs) : splitOn sep cs = [cs] := by
  induction cs with
  | nil => rfl
  | cons c cs ih =>
    simp only [List.mem_cons, not_or] at absent
    simp [splitOn, Ne.symm absent.1, ih absent.2]

theorem splitOn_append_of_not_mem {sep : Char} (absent : sep ∉ as) (bs : List Char) :
    splitOn sep (as ++ bs) = (splitOn sep bs).modifyHead (as ++ ·) := by
  induction as with
  | nil => exact (congrFun List.modifyHead_id (splitOn sep bs)).symm
  | cons c as ih =>
    simp only [List.mem_cons, not_or] at absent
    rw [List.cons_append, splitOn, if_neg (Ne.symm absent.1), ih absent.2]
    cases cut : splitOn sep bs with
    | nil => exact absurd cut (splitOn_ne_nil sep bs)
    | cons piece rest => rfl

theorem length_splitOn (sep : Char) (cs : List Char) :
    (splitOn sep cs).length = cs.count sep + 1 := by
  fun_induction splitOn sep cs <;> simp_all

theorem not_mem_of_mem_splitOn {sep : Char} {piece : List Char} :
    piece ∈ splitOn sep cs → sep ∉ piece := by
  fun_induction splitOn sep cs generalizing piece with
  | case1 => exact fun mem => List.mem_singleton.mp mem ▸ List.not_mem_nil
  | case2 cs ih => grind
  | case3 c cs other head rest cut ih => grind
  | case4 c cs other none ih => exact absurd none (splitOn_ne_nil sep cs)

theorem flatMap_splitOn (sep : Char) (cs : List Char) :
    (splitOn sep cs).flatMap (· ++ [sep]) = cs ++ [sep] := by
  fun_induction splitOn sep cs with
  | case1 => rfl
  | case2 cs ih => simp [ih]
  | case3 c cs other head rest cut ih => simpa [cut] using ih
  | case4 c cs other none ih => exact absurd none (splitOn_ne_nil sep cs)

theorem linesOfPieces_append {pieces rest : List (List Char)} (more : rest ≠ []) :
    linesOfPieces (pieces ++ rest) = pieces.map dropReturn ++ linesOfPieces rest := by
  induction pieces with
  | nil => rfl
  | cons piece pieces ih =>
    rw [List.cons_append, linesOfPieces, ih, List.map_cons, List.cons_append]
    exact fun last => more (List.append_eq_nil_iff.mp last).2

theorem lines_append (as bs : List Char) :
    lines (as ++ '\n' :: bs) = (splitOn '\n' as).map dropReturn ++ lines bs := by
  rw [lines, splitOn_append, linesOfPieces_append (splitOn_ne_nil _ _), lines]

@[simp] theorem lines_nil : lines [] = [] := rfl

theorem lines_cons (plain : '\n' ∉ line) (cs : List Char) :
    lines (line ++ '\n' :: cs) = dropReturn line :: lines cs := by
  rw [lines_append, splitOn_of_not_mem plain, List.map_singleton, List.singleton_append]

theorem dropReturn_of_ne (last : line.getLast? ≠ some '\r') : dropReturn line = line :=
  if_neg last

/-- Lines that are written one by one, each with a line feed behind it, are read as they are. -/
theorem lines_flatMap {ls : List (List Char)}
    (plain : ∀ line ∈ ls, '\n' ∉ line ∧ line.getLast? ≠ some '\r') :
    lines (ls.flatMap (· ++ ['\n'])) = ls := by
  induction ls with
  | nil => rfl
  | cons line ls ih =>
    obtain ⟨⟨single, last⟩, plain⟩ := List.forall_mem_cons.mp plain
    rw [List.flatMap_cons, List.append_assoc, List.singleton_append, lines_cons single,
      dropReturn_of_ne last, ih plain]

/-! ## Rows -/

def rows : List Char → List (List Char)
  | [] => []
  | c :: cs =>
    if c = '\n' then [c] :: rows cs
    else
      match rows cs with
      | [] => [[c]]
      | row :: rest => (c :: row) :: rest

/-- No row has a line feed but at its end, and all but the last one end in one. -/
structure AreRows (rs : List (List Char)) : Prop where
  plain : ∀ row ∈ rs, '\n' ∉ row.dropLast
  ended : rs.Pairwise fun row _ => row.getLast? = some '\n'

theorem AreRows.sublist {rs more : List (List Char)} (areRows : AreRows more)
    (part : rs.Sublist more) : AreRows rs :=
  ⟨fun row mem => areRows.plain row (part.subset mem), areRows.ended.sublist part⟩

theorem flatten_rows (cs : List Char) : (rows cs).flatten = cs := by
  fun_induction rows cs with
  | case1 => rfl
  | case2 cs ih => simp [ih]
  | case3 c cs _ none ih => simpa [none] using ih
  | case4 c cs _ row rest cut ih => simpa [cut] using ih

theorem areRows_rows (cs : List Char) : AreRows (rows cs) := by
  fun_induction rows cs with
  | case1 => exact ⟨nofun, .nil⟩
  | case2 cs ih =>
    refine ⟨List.forall_mem_cons.mpr ⟨List.not_mem_nil, ih.plain⟩, ?_⟩
    exact List.pairwise_cons.mpr ⟨fun _ _ => rfl, ih.ended⟩
  | case3 c cs _ none ih => exact ⟨by simp, List.pairwise_singleton ..⟩
  | case4 c cs noFeed row rest cut ih =>
    rw [cut] at ih
    obtain ⟨plain, others⟩ := List.forall_mem_cons.mp ih.plain
    obtain ⟨ended, more⟩ := List.pairwise_cons.mp ih.ended
    refine ⟨List.forall_mem_cons.mpr ⟨?_, others⟩, List.pairwise_cons.mpr ⟨?_, more⟩⟩
    · cases row with
      | nil => exact List.not_mem_nil
      | cons d row =>
        rw [List.dropLast_cons_cons, List.mem_cons, not_or]
        exact ⟨Ne.symm noFeed, plain⟩
    · intro next mem
      rw [List.getLast?_cons, ended next mem]
      rfl

end LivePreview.Text
