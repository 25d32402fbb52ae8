import LivePreview.Compiler.Stage
import LivePreview.Proofs.Text.Digits
import Mathlib.Data.List.Nodup

/-!
# Directories of generations

The pages of a generation are in a directory of their own.  Directories of different
generations have nothing in common (`generation_of_beneath`), so that what is written
to one of them, or removed with it, leaves the listing of another as it was
(`Lists.of_settles`).
-/

namespace LivePreview.Compiler

/-! ## Names -/

def folder (outDir : Path) (generation : Nat) : Path :=
  outDir.child s!"gen-{generation}"

/-- Whether a file is in a directory, or deeper. -/
def Beneath (dir file : Path) : Prop :=
  ∃ rest, file.text.toList = dir.text.toList ++ '/' :: rest

theorem child_chars (p : Path) : ∃ lead, ∀ name : String, name.toList.head? ≠ some '/' →
    (p.child name).text.toList = lead ++ name.toList := by
  cases last : p.text.toList.getLast? with
  | none =>
    refine ⟨[], fun name relative => ?_⟩
    simp [Path.child, Path.join, Path.isAbsolute, relative, last]
  | some c =>
    by_cases slash : c = '/'
    · refine ⟨p.text.toList, fun name relative => ?_⟩
      simp [Path.child, Path.join, Path.isAbsolute, relative, last, slash]
    · refine ⟨p.text.toList ++ ['/'], fun name relative => ?_⟩
      simp [Path.child, Path.join, Path.isAbsolute, relative, last]

theorem folder_chars (outDir : Path) : ∃ lead, ∀ generation,
    (folder outDir generation).text.toList = lead ++ Nat.toDigits 10 generation := by
  obtain ⟨lead, chars⟩ := child_chars outDir
  refine ⟨lead ++ "gen-".toList, fun generation => ?_⟩
  have name : s!"gen-{generation}".toList = "gen-".toList ++ Nat.toDigits 10 generation := by
    simp [toString]
  have relative : s!"gen-{generation}".toList.head? ≠ some '/' := by
    rw [name]
    simp
  rw [folder, chars _ relative, name, List.append_assoc]

theorem slash_not_mem_digits (n : Nat) : '/' ∉ Nat.toDigits 10 n :=
  Text.not_mem_toDigits (by decide) n

theorem digits_injective {m n : Nat} (same : Nat.toDigits 10 m = Nat.toDigits 10 n) : m = n := by
  rw [← Nat.ofDigitChars_ten_toDigits (n := m), same, Nat.ofDigitChars_ten_toDigits]

theorem folder_injective {outDir : Path} {m n : Nat} (same : folder outDir m = folder outDir n) :
    m = n := by
  obtain ⟨lead, chars⟩ := folder_chars outDir
  have digits := congrArg (fun p : Path => p.text.toList) same
  simp only [chars] at digits
  exact digits_injective (List.append_cancel_left digits)

/-- A file is in the directory of one generation only. -/
theorem generation_of_beneath {outDir file : Path} {m n : Nat}
    (first : Beneath (folder outDir m) file) (second : Beneath (folder outDir n) file) :
    m = n := by
  obtain ⟨lead, chars⟩ := folder_chars outDir
  obtain ⟨rest, first⟩ := first
  obtain ⟨rest', second⟩ := second
  have same := first.symm.trans second
  simp only [chars, List.append_assoc] at same
  -- the digits end where the first slash stands
  have digits := congrArg (List.takeWhile (· != '/')) (List.append_cancel_left same)
  have whole : ∀ k rest, (Nat.toDigits 10 k ++ '/' :: rest).takeWhile (· != '/') =
      Nat.toDigits 10 k := by
    intro k rest
    rw [List.takeWhile_append_of_pos]
    · simp
    · intro c mem
      exact bne_iff_ne.mpr fun same => slash_not_mem_digits k (same ▸ mem)
  rw [whole, whole] at digits
  exact digits_injective digits

theorem child_beneath {outDir : Path} {generation : Nat} {name : String}
    (plain : '/' ∉ name.toList) :
    Beneath (folder outDir generation) ((folder outDir generation).child name) := by
  obtain ⟨lead, chars⟩ := folder_chars outDir
  have relative : name.toList.head? ≠ some '/' := fun head =>
    plain (List.mem_of_head? head)
  obtain ⟨c, last, digit⟩ : ∃ c, (folder outDir generation).text.toList.getLast? = some c ∧
      c ≠ '/' := by
    have some_digit : Nat.toDigits 10 generation ≠ [] := Nat.toDigits_ne_nil
    refine ⟨(Nat.toDigits 10 generation).getLast some_digit, ?_, fun slash => ?_⟩
    · rw [chars, List.getLast?_append_of_ne_nil _ some_digit, List.getLast?_eq_getLast_of_ne_nil]
    · exact slash_not_mem_digits generation (slash ▸ List.getLast_mem some_digit)
  refine ⟨name.toList, ?_⟩
  simp [Path.child, Path.join, Path.isAbsolute, relative, last]

theorem child_injective {p : Path} {name name' : String} (plain : '/' ∉ name.toList)
    (plain' : '/' ∉ name'.toList) (same : p.child name = p.child name') : name = name' := by
  obtain ⟨lead, chars⟩ := child_chars p
  have relative : ∀ {s : String}, '/' ∉ s.toList → s.toList.head? ≠ some '/' :=
    fun plain head => plain (List.mem_of_head? head)
  have same := congrArg (fun p : Path => p.text.toList) same
  simp only [chars name (relative plain), chars name' (relative plain')] at same
  exact String.toList_inj.mp (List.append_cancel_left same)

/-! ## What is in them -/

/-- What there is below the output directory. -/
abbrev Entries := Path → Prop

/-- `names` are the names in a directory, each of them once. -/
structure Lists (entries : Entries) (dir : Path) (names : List String) : Prop where
  nodup : names.Nodup
  mem_iff : ∀ name, name ∈ names ↔ '/' ∉ name.toList ∧ entries (dir.child name)

/-- No directory of a generation has changed but those in `loose`. -/
def Settles (outDir : Path) (loose : List Path) (entries entries' : Entries) : Prop :=
  ∀ generation file, Beneath (folder outDir generation) file →
    folder outDir generation ∉ loose → (entries' file ↔ entries file)

/-- The listing of a directory stays the same when others change. -/
theorem Lists.of_settles {outDir : Path} {generation : Nat} {loose : List Path}
    {entries entries' : Entries} {names : List String}
    (lists : Lists entries (folder outDir generation) names)
    (settles : Settles outDir loose entries entries')
    (apart : folder outDir generation ∉ loose) :
    Lists entries' (folder outDir generation) names := by
  refine ⟨lists.nodup, fun name => (lists.mem_iff name).trans ?_⟩
  exact and_congr_right fun plain => (settles _ _ (child_beneath plain) apart).symm

/-- A file more in a directory. -/
def Entries.add (entries : Entries) (dir : Path) (name : String) : Entries :=
  fun file => file = dir.child name ∨ entries file

/-- A directory that changes by itself may get another file. -/
theorem Settles.add {outDir : Path} {generation : Nat} {loose : List Path} (entries : Entries)
    {name : String} (plain : '/' ∉ name.toList) (changes : folder outDir generation ∈ loose) :
    Settles outDir loose entries (entries.add (folder outDir generation) name) := by
  intro n file beneath still
  refine ⟨fun added => added.resolve_left ?_, .inr⟩
  rintro rfl
  obtain rfl := generation_of_beneath beneath (child_beneath plain)
  exact still changes

/-- A file more in one directory leaves the others as they are. -/
theorem Lists.beside {outDir : Path} {m n : Nat} {entries : Entries} {names : List String}
    {name : String} (lists : Lists entries (folder outDir n) names) (plain : '/' ∉ name.toList)
    (other : n ≠ m) : Lists (entries.add (folder outDir m) name) (folder outDir n) names := by
  refine lists.of_settles (.add entries plain (List.mem_singleton_self _)) fun mem => other ?_
  exact folder_injective (List.mem_singleton.mp mem)

theorem lists_nothing (dir : Path) : Lists (fun _ => False) dir [] :=
  ⟨List.nodup_nil, by simp⟩

theorem Lists.add {entries : Entries} {dir : Path} {names : List String} {name : String}
    (lists : Lists entries dir names) (plain : '/' ∉ name.toList) (new : name ∉ names) :
    Lists (entries.add dir name) dir (names ++ [name]) := by
  refine ⟨lists.nodup.append (List.nodup_singleton name) (by simpa using new), fun other => ?_⟩
  rw [List.mem_append, List.mem_singleton, lists.mem_iff other]
  constructor
  · rintro (⟨plain', there⟩ | rfl)
    · exact ⟨plain', .inr there⟩
    · exact ⟨plain, .inl rfl⟩
  · rintro ⟨plain', same | there⟩
    · exact .inr (child_injective plain' plain same)
    · exact .inl ⟨plain', there⟩

end LivePreview.Compiler
