import LivePreview.Proofs.Path.FileName
import LivePreview.Proofs.Text.Lines

/-!
# The components of a path

A path is cut at its slashes, and a piece behind a slash is a component unless it is empty or a dot
(`pieces`).  What the functions on texts do is told by the components: a tail that is dropped is
none of them (`componentsOf_dropTail`), a parent has all but the last one (`components_parent?`),
and the part of a path below another one has those that are left (`components_below?`).
-/

namespace LivePreview.Path

variable {cs as bs first tail back : List Char} {p q base : Path}

/-! ## Pieces -/

/-- The components in a text that stands behind a slash. -/
def pieces (cs : List Char) : List Component :=
  (Text.splitOn '/' cs).filterMap component?

@[simp] theorem pieces_nil : pieces [] = [] := rfl

@[simp] theorem pieces_here : pieces ['.'] = [] := rfl

theorem pieces_append (as bs : List Char) : pieces (as ++ '/' :: bs) = pieces as ++ pieces bs := by
  rw [pieces, Text.splitOn_append, List.filterMap_append, pieces, pieces]

theorem pieces_slash (cs : List Char) : pieces ('/' :: cs) = pieces cs :=
  pieces_append [] cs

theorem pieces_of_not_mem (noSlash : '/' ∉ first) : pieces first = (component? first).toList := by
  rw [pieces, Text.splitOn_of_not_mem noSlash]
  cases counts : component? first <;> simp [counts]

theorem pieces_of_first (noSlash : '/' ∉ first) (apart : ∀ c ∈ tail.head?, c = '/') :
    pieces (first ++ tail) = (component? first).toList ++ pieces tail := by
  rw [← pieces_of_not_mem noSlash]
  cases tail with
  | nil => rw [List.append_nil, pieces_nil, List.append_nil]
  | cons c tail =>
    obtain rfl := apart c rfl
    rw [pieces_append, pieces_slash]

theorem component?_isSome (some : first ≠ []) (notHere : first ≠ ['.']) :
    ∃ c, component? first = .some c ∧ c ≠ .root := by
  unfold component?
  split
  · exact absurd rfl some
  · exact absurd rfl notHere
  · exact ⟨.up, rfl, nofun⟩
  · exact ⟨.name _, rfl, nofun⟩

/-- Behind a slash there are names, and steps up. -/
theorem mem_pieces {c : Component} (mem : c ∈ pieces cs) : c = .up ∨ ∃ name, c = .name name := by
  obtain ⟨piece, -, counts⟩ := List.mem_filterMap.mp mem
  unfold component? at counts
  split at counts
  · cases counts
  · cases counts
  · exact .inl (Option.some.inj counts).symm
  · exact .inr ⟨_, (Option.some.inj counts).symm⟩

/-! ## Components -/

@[simp] theorem componentsOf_nil : componentsOf [] = [] := rfl

theorem componentsOf_slash (cs : List Char) : componentsOf ('/' :: cs) = .root :: pieces cs := by
  have cut : Text.splitOn '/' ('/' :: cs) = [] :: Text.splitOn '/' cs := by simp [Text.splitOn]
  simp [componentsOf, cut, Text.splitOn_ne_nil, pieces]

/-- The first component of a relative path. -/
def start (first : List Char) : List Component :=
  if first = ['.'] then [.here] else (component? first).toList

theorem componentsOf_of_not_mem (some : first ≠ []) (noSlash : '/' ∉ first) :
    componentsOf first = start first := by
  rw [componentsOf, Text.splitOn_of_not_mem noSlash]
  simp [some, start]

theorem componentsOf_of_first (some : first ≠ []) (noSlash : '/' ∉ first)
    (apart : ∀ c ∈ tail.head?, c = '/') :
    componentsOf (first ++ tail) = start first ++ pieces tail := by
  cases tail with
  | nil => rw [List.append_nil, componentsOf_of_not_mem some noSlash, pieces_nil, List.append_nil]
  | cons c tail =>
    obtain rfl := apart c rfl
    rw [componentsOf, Text.splitOn_append, Text.splitOn_of_not_mem noSlash, pieces_slash]
    simp [some, start, pieces]

/-- Every text is a first piece with the rest behind it. -/
theorem exists_first (cs : List Char) :
    ∃ first tail, cs = first ++ tail ∧ '/' ∉ first ∧ ∀ c ∈ tail.head?, c = '/' := by
  refine ⟨cs.takeWhile (· ≠ '/'), cs.dropWhile (· ≠ '/'), ?_, ?_, ?_⟩
  · exact List.takeWhile_append_dropWhile.symm
  · intro slash
    simpa using List.mem_takeWhile_imp slash
  · intro c stops
    have other := List.head?_dropWhile_not (· ≠ '/') cs
    rw [Option.mem_def.mp stops] at other
    simpa using other

/-- What is behind a slash comes after what is in front of it. -/
theorem componentsOf_append (some : as ≠ []) (bs : List Char) :
    componentsOf (as ++ '/' :: bs) = componentsOf as ++ pieces bs := by
  obtain ⟨first, tail, rfl, noSlash, apart⟩ := exists_first as
  cases first with
  | nil =>
    obtain ⟨c, tail, rfl⟩ := List.exists_cons_of_ne_nil some
    obtain rfl := apart c rfl
    simp only [List.nil_append, List.cons_append, componentsOf_slash, pieces_append]
  | cons d first =>
    have reaches : ∀ c ∈ (tail ++ '/' :: bs).head?, c = '/' := by
      cases tail with
      | nil => simp
      | cons c tail => simpa using apart
    have some : d :: first ≠ [] := List.cons_ne_nil d first
    rw [List.append_assoc, componentsOf_of_first some noSlash reaches,
      componentsOf_of_first some noSlash apart, pieces_append, List.append_assoc]

theorem componentsOf_append_slash (as bs : List Char) :
    componentsOf (as ++ '/' :: bs) = componentsOf (as ++ ['/']) ++ pieces bs := by
  cases as with
  | nil => rw [List.nil_append, List.nil_append, componentsOf_slash, componentsOf_slash]; rfl
  | cons c as =>
    have some : c :: as ≠ [] := List.cons_ne_nil c as
    rw [componentsOf_append some, componentsOf_append some, pieces_nil, List.append_nil]

theorem isAbsolute_iff : p.isAbsolute = true ↔ ∃ cs, p.text.toList = '/' :: cs := by
  rw [isAbsolute, beq_iff_eq]
  cases p.text.toList <;> simp

theorem components_of_isAbsolute (absolute : p.isAbsolute = true) :
    ∃ cs, p.text.toList = '/' :: cs ∧ p.components = .root :: pieces cs := by
  obtain ⟨cs, text⟩ := isAbsolute_iff.mp absolute
  exact ⟨cs, text, by rw [components, text, componentsOf_slash]⟩

/-- The root is nowhere but in front. -/
theorem rooted_of_concat {init : List Component} {c : Component} (notRoot : c ≠ .root)
    (rooted : (init ++ [c]).head? = some .root) : init.head? = some .root := by
  cases init with
  | nil => exact absurd (Option.some.inj rooted) notRoot
  | cons d init => exact rooted

/-! ## Parents -/

theorem componentsOf_dropTail (back : List Char) :
    componentsOf (dropTail back).reverse = componentsOf back.reverse := by
  fun_induction dropTail back with
  | case1 c rest ih =>
    rw [ih, List.reverse_cons (a := '/'), componentsOf_append (by simp), pieces_nil,
      List.append_nil]
  | case2 rest ih =>
    rw [ih, List.reverse_cons (a := '.'), List.reverse_cons, List.append_assoc,
      List.singleton_append, componentsOf_append_slash _ ['.'], pieces_here, List.append_nil]
  | case3 back => rfl

/-- A path with a file name ends in it. -/
theorem components_of_fileNameOf? {name : List Char} (named : fileNameOf? cs = some name) :
    ∃ init, componentsOf cs = init ++ [.name name] := by
  obtain ⟨dir, ends⟩ := endsIn_of_fileNameOf? named
  have counts := (component?_eq_name_iff ends.isName.noSlash).mpr ⟨rfl, ends.isName⟩
  rw [← List.reverse_reverse cs, ← componentsOf_dropTail, ends.back, List.reverse_append,
    List.reverse_reverse]
  cases dir with
  | nil =>
    rw [List.reverse_nil, List.nil_append, componentsOf_of_not_mem ends.isName.some
      ends.isName.noSlash, start, if_neg ends.isName.notHere, counts, Option.toList_some]
    exact ⟨[], rfl⟩
  | cons c dir =>
    obtain rfl := ends.apart c rfl
    rw [List.reverse_cons, List.append_assoc, List.singleton_append, componentsOf_append_slash,
      pieces_of_not_mem ends.isName.noSlash, counts, Option.toList_some]
    exact ⟨_, rfl⟩

/-- A text without a tail ends in a slash only if it is nothing else, and not in a dot behind a
    slash. -/
theorem dropTail_settled (back : List Char) :
    (∀ rest, dropTail back = '/' :: rest → rest = []) ∧
      ∀ rest, dropTail back ≠ '.' :: '/' :: rest := by
  have settled := dropTail_dropTail back
  constructor
  · intro rest ends
    rw [ends] at settled
    cases rest with
    | nil => rfl
    | cons c rest =>
      have shorter := (dropTail_suffix (c :: rest)).length_le
      have same := congrArg List.length settled
      rw [dropTail, List.length_cons] at same
      omega
  · intro rest ends
    rw [ends, dropTail] at settled
    have shorter := (dropTail_suffix ('/' :: rest)).length_le
    have same := congrArg List.length settled
    rw [List.length_cons] at same
    omega

/-- Cuts the last component off a text without a tail. -/
theorem exists_last (some : dropTail back ≠ []) (below : dropTail back ≠ ['/']) :
    ∃ c ≠ Component.root, componentsOf (dropTail back).reverse =
      componentsOf (cutLast (dropTail back)).2.reverse ++ [c] := by
  obtain ⟨slash, here⟩ := dropTail_settled back
  generalize dropTail back = text at *
  obtain ⟨last, dir, rfl, noSlash, apart⟩ := exists_first text
  have cut : cutLast (last ++ dir) = (last, dir) := by
    have back : cutLast (last.reverse.reverse ++ dir) = (last.reverse.reverse, dir) :=
      cutLast_append (mt List.mem_reverse.mp noSlash) apart
    rwa [List.reverse_reverse] at back
  -- were it empty, the text would end in a slash, and so be just this slash
  have filled : last ≠ [] := by
    rintro rfl
    obtain ⟨c, rest, rfl⟩ := List.exists_cons_of_ne_nil some
    obtain rfl := apart c rfl
    exact below (by rw [slash rest rfl, List.nil_append])
  have noSlash' : '/' ∉ last.reverse := mt List.mem_reverse.mp noSlash
  have filled' : last.reverse ≠ [] := List.reverse_ne_nil_iff.mpr filled
  rw [cut, List.reverse_append]
  cases dir with
  | nil =>
    rw [List.reverse_nil, List.nil_append, componentsOf_nil,
      componentsOf_of_not_mem filled' noSlash', start]
    split
    · exact ⟨.here, nofun, rfl⟩
    · next notHere =>
      obtain ⟨c, counts, notRoot⟩ := component?_isSome filled' notHere
      exact ⟨c, notRoot, by rw [counts, Option.toList_some, List.nil_append]⟩
  | cons d dir =>
    obtain rfl := apart d rfl
    have notHere : last.reverse ≠ ['.'] := by
      rintro dot
      rw [List.reverse_eq_iff] at dot
      exact here dir (by rw [dot]; rfl)
    obtain ⟨c, counts, notRoot⟩ := component?_isSome filled' notHere
    refine ⟨c, notRoot, ?_⟩
    rw [List.reverse_cons, List.append_assoc, List.singleton_append, componentsOf_append_slash,
      pieces_of_not_mem noSlash', counts, Option.toList_some]

theorem components_parent? (above : p.parent? = some q) :
    ∃ c ≠ Component.root, p.components = q.components ++ [c] := by
  obtain ⟨text, inText, rfl⟩ := Option.map_eq_some_iff.mp above
  unfold parentOf? at inText
  split at inText
  · cases inText
  · cases inText
  · next back some below =>
    obtain rfl := Option.some.inj inText
    obtain ⟨c, notRoot, cut⟩ := exists_last some below
    refine ⟨c, notRoot, ?_⟩
    rw [componentsOf_dropTail, List.reverse_reverse] at cut
    rw [components, cut, components, String.toList_ofList, componentsOf_dropTail]

theorem components_of_parent?_none (top : p.parent? = none) :
    p.components = [] ∨ p.components = [.root] := by
  have same : componentsOf p.text.toList =
      componentsOf (dropTail p.text.toList.reverse).reverse := by
    rw [componentsOf_dropTail, List.reverse_reverse]
  have inText := Option.map_eq_none_iff.mp top
  rw [components, same]
  unfold parentOf? at inText
  split at inText
  · next none => exact .inl (by rw [none, List.reverse_nil, componentsOf_nil])
  · next root => exact .inr (by rw [root]; rfl)
  · cases inText

/-- A parent is written with fewer characters. -/
theorem length_parent? (above : p.parent? = some q) :
    q.text.toList.length < p.text.toList.length := by
  obtain ⟨text, inText, rfl⟩ := Option.map_eq_some_iff.mp above
  have whole := (dropTail_suffix p.text.toList.reverse).length_le
  obtain ⟨slash, -⟩ := dropTail_settled p.text.toList.reverse
  unfold parentOf? at inText
  split at inText
  · cases inText
  · cases inText
  · next some below =>
    obtain rfl := Option.some.inj inText
    generalize dropTail p.text.toList.reverse = back at *
    obtain ⟨c, back, rfl⟩ := List.exists_cons_of_ne_nil some
    have notSlash : c ≠ '/' := by
      rintro rfl
      exact below (by rw [slash back rfl])
    have shorter := (dropTail_suffix (cutLast (c :: back)).2).length_le
    have inRest : (cutLast (c :: back)).2 = (cutLast back).2 := by
      simp [cutLast, notSlash]
    have cut := (List.dropWhile_suffix (l := back) (· ≠ '/')).length_le
    rw [inRest] at shorter ⊢
    simp only [cutLast, List.length_reverse, String.toList_ofList, List.length_cons] at *
    omega

/-! ## Parts of a path -/

theorem pieces_dropLead (cs : List Char) : pieces (dropLead cs) = pieces cs := by
  fun_induction dropLead cs with
  | case1 rest ih => rw [ih, pieces_slash]
  | case2 rest ih =>
    rw [ih]
    exact (pieces_append ['.'] rest).symm
  | case3 => rfl
  | case4 => rfl

/-- Without its lead a text is empty or begins with a component. -/
theorem dropLead_cases (cs : List Char) :
    dropLead cs = [] ∨ ∃ first tail c, dropLead cs = first ++ tail ∧ '/' ∉ first ∧
      first ≠ ['.'] ∧ component? first = some c ∧ ∀ c ∈ tail.head?, c = '/' := by
  fun_induction dropLead cs with
  | case1 rest ih => exact ih
  | case2 rest ih => exact ih
  | case3 => exact .inl rfl
  | case4 rest noSlash noHere notHere =>
    obtain ⟨first, tail, rfl, apart, stops⟩ := exists_first rest
    cases first with
    | nil =>
      cases tail with
      | nil => exact .inl rfl
      | cons c tail =>
        obtain rfl := stops c rfl
        exact absurd rfl (noSlash tail)
    | cons d first =>
      have other : d :: first ≠ ['.'] := by
        rintro dot
        obtain ⟨rfl, rfl⟩ := List.cons.inj dot
        cases tail with
        | nil => exact notHere rfl
        | cons c tail =>
          obtain rfl := stops c rfl
          exact noHere tail rfl
      obtain ⟨c, counts, -⟩ := component?_isSome (List.cons_ne_nil d first) other
      exact .inr ⟨d :: first, tail, c, rfl, apart, other, counts, stops⟩

theorem componentsOf_dropLead (cs : List Char) :
    componentsOf (dropLead cs) = pieces (dropLead cs) := by
  rcases dropLead_cases cs with none | ⟨first, tail, c, cut, noSlash, notHere, counts, apart⟩
  · rw [none, componentsOf_nil, pieces_nil]
  · have some : first ≠ [] := by
      rintro rfl
      cases counts
    rw [cut, componentsOf_of_first some noSlash apart, start, if_neg notHere,
      pieces_of_first noSlash apart]

theorem pieces_dropFirst (cs : List Char) :
    pieces ((dropLead cs).dropWhile (· ≠ '/')) = (pieces cs).drop 1 := by
  rw [← pieces_dropLead cs]
  rcases dropLead_cases cs with none | ⟨first, tail, c, cut, noSlash, -, counts, apart⟩
  · rw [none]
    rfl
  · have stops : ∀ c ∈ tail.head?, decide (c ≠ '/') = false := by simpa using apart
    rw [cut, Text.dropWhile_run (Text.decide_ne_of_not_mem noSlash) stops,
      pieces_of_first noSlash apart, counts, Option.toList_some, List.singleton_append,
      List.drop_succ_cons, List.drop_zero]

theorem componentsOf_dropComponents (n : Nat) (cs : List Char) :
    componentsOf (dropComponents n cs) = (pieces cs).drop n := by
  induction n generalizing cs with
  | zero => rw [dropComponents, componentsOf_dropLead, pieces_dropLead, List.drop_zero]
  | succ n ih => rw [dropComponents, ih, pieces_dropFirst, List.drop_drop, Nat.add_comm]

theorem startsWith_iff : p.startsWith base = true ↔ base.components <+: p.components := by
  rw [startsWith, List.isPrefixOf_iff_prefix]

/-- Below another path, a path has the components that are left. -/
theorem components_below? (absolute : p.isAbsolute = true)
    (inside : base.components <+: p.components) :
    ∃ rest, p.below? base = some rest ∧
      rest.components = p.components.drop base.components.length := by
  obtain ⟨cs, text, parts⟩ := components_of_isAbsolute absolute
  rw [below?, if_pos (startsWith_iff.mpr inside)]
  rw [parts] at inside ⊢
  rcases List.prefix_cons_iff.mp inside with none | ⟨more, begins, -⟩
  · rw [none]
    exact ⟨p, rfl, parts⟩
  · rw [begins]
    refine ⟨_, rfl, ?_⟩
    rw [components, String.toList_ofList, componentsOf_dropTail, List.reverse_reverse,
      componentsOf_dropComponents, text, List.drop_one, List.tail_cons, List.length_cons,
      List.drop_succ_cons]

end LivePreview.Path
