import LivePreview.Export.Format
import LivePreview.Proofs.Path.FileName
import LivePreview.Proofs.Text.Cuts

/-!
# Output paths

The path of an output lies in the directory of the path that was asked for, has an extension, and
names the pages apart where there may be several (`outputPath_isOutput`).  A path like that is
left as it is (`outputPath_of_complete`).
-/

namespace LivePreview.ExportFormat

open Text

variable {format : ExportFormat} {requested path : Path} {dir name : List Char}

/-- Whether a path has a placeholder for the number of a page in it. -/
def CarriesPlaceholder (path : Path) : Prop :=
  "\x7bp\x7d".toList <:+: path.text.toList ∨ "\x7b0p\x7d".toList <:+: path.text.toList

/-- Whether an export writes one file, whatever the document is. -/
def OneFile (format : ExportFormat) : Prop :=
  format = .pdf ∨ ∃ n, format.pages = some ⟨n, n⟩

theorem hasPlaceholder_iff : hasPlaceholder path = true ↔ CarriesPlaceholder path := by
  simp [hasPlaceholder, placeholders, CarriesPlaceholder, occursIn_iff]

theorem isSingle_iff : format.isSingle = true ↔ format.OneFile := by
  have single (pages : Option PageRange) :
      pages.any PageRange.isSingle = true ↔ ∃ n, pages = some ⟨n, n⟩ := by
    cases pages with
    | none => simp
    | some range =>
      obtain ⟨start, stop⟩ := range
      simp [PageRange.isSingle, eq_comm (a := start)]
  cases format <;> simp [isSingle, OneFile, pages, single]

/-! ## Extensions -/

theorem name_plain (format : ExportFormat) : ∀ c ∈ format.name.toList, c.isAlpha := by
  cases format <;> simp [name]

theorem name_ne_empty (format : ExportFormat) : format.name ≠ "" := by
  cases format <;> simp [name]

theorem name_apart (format : ExportFormat) : ∀ c ∈ format.name.toList, c ≠ '/' ∧ c ≠ '.' := by
  intro c mem
  have letter := format.name_plain c mem
  constructor <;> rintro rfl <;> exact absurd letter (by decide)

theorem cutExtension_name (some : name ≠ []) (format : ExportFormat) :
    Path.cutExtension (name ++ '.' :: format.name.toList) = (name, .some format.name.toList) :=
  Path.cutExtension_append some fun dot => (format.name_apart _ dot).2 rfl

theorem withExtension_of_some {extension : String} (has : requested.extension? = some extension) :
    format.withExtension requested = requested := by
  rw [withExtension, has]

theorem withExtension_of_none (ends : Path.EndsIn requested.text.toList dir name)
    (bare : requested.extension? = none) :
    (format.withExtension requested).text.toList =
      dir.reverse ++ (name ++ '.' :: format.name.toList) := by
  have whole : (Path.cutExtension name).1 = name := by
    rw [ends.extension?, Option.map_eq_none_iff] at bare
    exact Path.cutExtension_of_none bare
  rw [withExtension, bare]
  dsimp only
  rw [ends.setExtension format.name_ne_empty, whole, List.append_assoc]

/-- A path keeps its own extension. -/
theorem withExtension_endsIn (format : ExportFormat)
    (ends : Path.EndsIn requested.text.toList dir name) :
    ∃ name', Path.EndsIn (format.withExtension requested).text.toList dir name' ∧
      (Path.cutExtension name').2.map String.ofList =
        some (requested.extension?.getD format.name) := by
  cases has : requested.extension? with
  | some extension =>
    rw [withExtension_of_some has]
    exact ⟨name, ends, by rw [← ends.extension?, has, Option.getD_some]⟩
  | none =>
    have filled : format.name.toList ≠ [] := by
      simpa [String.toList_eq_nil_iff] using format.name_ne_empty
    have isName := ends.isName.withExtension filled format.name_apart
    rw [withExtension_of_none ends has]
    refine ⟨_, Path.endsIn_append isName ends.apart, ?_⟩
    rw [cutExtension_name ends.isName.some, Option.map_some, String.ofList_toList,
      Option.getD_none]

/-- An extension completes no placeholder. -/
theorem carries_of_withExtension (ends : Path.EndsIn requested.text.toList dir name)
    (carries : CarriesPlaceholder (format.withExtension requested)) :
    CarriesPlaceholder requested := by
  cases has : requested.extension? with
  | some extension => rwa [withExtension_of_some has] at carries
  | none =>
    have inside {piece : List Char} (noDot : '.' ∉ piece) (closed : '\x7d' ∈ piece)
        (occurs : piece <:+: (format.withExtension requested).text.toList) :
        piece <:+: requested.text.toList := by
      rw [withExtension_of_none ends has, ← List.append_assoc] at occurs
      rcases infix_append_cons noDot occurs with inFront | inExtension
      · exact inFront.trans ends.front_prefix.isInfix
      · have letter := format.name_plain _ (inExtension.subset closed)
        exact absurd letter (by decide)
    exact carries.imp (inside (by decide) (by decide)) (inside (by decide) (by decide))

/-! ## Output paths -/

theorem outputPath_of_complete {extension : String} (has : path.extension? = some extension)
    (complete : format.OneFile ∨ CarriesPlaceholder path) : format.outputPath path = path := by
  rw [← isSingle_iff, ← hasPlaceholder_iff, ← Bool.or_eq_true] at complete
  rw [outputPath, withExtension_of_some has]
  exact if_pos complete

/-- The file name of the pages of an export. -/
def pagesName (format : ExportFormat) (stem : List Char) : List Char :=
  stem ++ "-\x7bp\x7d".toList ++ '.' :: format.name.toList

theorem pagesName_isName {stem : List Char} (noSlash : '/' ∉ stem) (format : ExportFormat) :
    Path.IsName (format.pagesName stem) := by
  refine .of_mem (c := '-') ?_ (by simp [pagesName]) (by decide)
  have apart : '/' ∉ format.name.toList := fun slash => (format.name_apart _ slash).1 rfl
  simp [pagesName, noSlash, apart]

/-- Without a placeholder the files of the pages are named after the one that was asked for. -/
theorem outputPath_of_incomplete (ends : Path.EndsIn requested.text.toList dir name)
    (incomplete : ¬ (format.OneFile ∨ CarriesPlaceholder (format.withExtension requested))) :
    ∃ dir' stem,
      Path.EndsIn (format.outputPath requested).text.toList dir' (format.pagesName stem) ∧
        Path.dropTail dir' = Path.dropTail dir := by
  obtain ⟨name', ends', -⟩ := withExtension_endsIn format ends
  have noSlash : '/' ∉ (Path.cutExtension name').1 := fun slash =>
    ends'.isName.noSlash ((Path.cutExtension_prefix name').subset slash)
  obtain ⟨new, called⟩ : ∃ new, new =
    String.ofList (Path.cutExtension name').1 ++ "-\x7bp\x7d." ++ format.name := ⟨_, rfl⟩
  have chars : new.toList = format.pagesName (Path.cutExtension name').1 := by
    simp [called, pagesName, String.toList_append]
  have isName : Path.IsName new.toList := by
    rw [chars]
    exact pagesName_isName noSlash format
  obtain ⟨dir', newEnds, same⟩ := ends'.setFileName isName
  rw [chars] at newEnds
  rw [← isSingle_iff, ← hasPlaceholder_iff, ← Bool.or_eq_true] at incomplete
  rw [outputPath, if_neg incomplete, ends'.stem?, Option.getD_some, ← called]
  exact ⟨dir', _, newEnds, same⟩

theorem carries_of_pagesName {stem : List Char}
    (ends : Path.EndsIn path.text.toList dir (format.pagesName stem)) :
    CarriesPlaceholder path := by
  have inName : "\x7bp\x7d".toList <:+: format.pagesName stem :=
    ⟨stem ++ ['-'], '.' :: format.name.toList, by simp [pagesName]⟩
  have inFront := inName.trans (List.suffix_append dir.reverse _).isInfix
  exact .inl (inFront.trans ends.front_prefix.isInfix)

/-- The path of an output, beside the path that was asked for. -/
structure IsOutput (format : ExportFormat) (requested output : Path) : Prop where
  parent : output.parent? = requested.parent?
  extension : ∃ extension, output.extension? = some extension ∧
    (requested.extension? = none → extension = format.name)
  fixed : format.outputPath output = output
  /-- The file of one page does not overwrite that of another. -/
  apart : ¬ format.OneFile → CarriesPlaceholder output
  /-- A single file is called what was asked for. -/
  plain : format.OneFile → CarriesPlaceholder output → CarriesPlaceholder requested

theorem isOutput_of_complete (ends : Path.EndsIn requested.text.toList dir name)
    (complete : format.OneFile ∨ CarriesPlaceholder (format.withExtension requested)) :
    IsOutput format requested (format.outputPath requested) := by
  have unchanged : format.outputPath requested = format.withExtension requested := by
    rw [← isSingle_iff, ← hasPlaceholder_iff, ← Bool.or_eq_true] at complete
    rw [outputPath, if_pos complete]
  obtain ⟨name', ends', has⟩ := withExtension_endsIn format ends
  rw [← ends'.extension?] at has
  rw [unchanged]
  refine ⟨?_, ⟨_, has, fun bare => ?_⟩, outputPath_of_complete has complete,
    complete.resolve_left, fun _ => carries_of_withExtension ends⟩
  · rw [ends'.parent?, ends.parent?]
  · rw [bare, Option.getD_none]

theorem isOutput_of_incomplete (ends : Path.EndsIn requested.text.toList dir name)
    (incomplete : ¬ (format.OneFile ∨ CarriesPlaceholder (format.withExtension requested))) :
    IsOutput format requested (format.outputPath requested) := by
  obtain ⟨dir', stem, newEnds, same⟩ := outputPath_of_incomplete ends incomplete
  have carries := carries_of_pagesName newEnds
  have has : (format.outputPath requested).extension? = some format.name := by
    rw [newEnds.extension?, pagesName, cutExtension_name (by simp), Option.map_some,
      String.ofList_toList]
  refine ⟨?_, ⟨_, has, fun _ => rfl⟩, outputPath_of_complete has (.inr carries),
    fun _ => carries, fun one => absurd (.inl one) incomplete⟩
  rw [newEnds.parent?, ends.parent?, same]

/-- An output goes into the directory that was asked for and has an extension.  Its path does not
    change when it is asked for again.  It names the pages apart if there may be several, and
    otherwise it has no placeholder that was not asked for. -/
theorem outputPath_isOutput (format : ExportFormat) (requested : Path)
    (named : requested.fileName? ≠ none) :
    IsOutput format requested (format.outputPath requested) := by
  obtain ⟨file, named⟩ := Option.ne_none_iff_exists'.mp named
  obtain ⟨name, nameOf, -⟩ := Option.map_eq_some_iff.mp named
  obtain ⟨dir, ends⟩ := Path.endsIn_of_fileNameOf? nameOf
  by_cases complete : format.OneFile ∨ CarriesPlaceholder (format.withExtension requested)
  · exact isOutput_of_complete ends complete
  · exact isOutput_of_incomplete ends complete

/-- A hidden file with a dot at its end, behind slashes and a dot. -/
theorem hidden_file_output :
    (⟨"a//b/./.c.d./"⟩ : Path).fileName? ≠ none ∧
      IsOutput (.png none 144) ⟨"a//b/./.c.d./"⟩ ⟨"a//b/.c.d-\x7bp\x7d.png"⟩ := by
  have named : (⟨"a//b/./.c.d./"⟩ : Path).fileName? ≠ none := by decide
  have output := outputPath_isOutput (.png none 144) ⟨"a//b/./.c.d./"⟩ named
  have path : outputPath (.png none 144) ⟨"a//b/./.c.d./"⟩ = ⟨"a//b/.c.d-\x7bp\x7d.png"⟩ := by
    decide +kernel
  exact ⟨named, path ▸ output⟩

end LivePreview.ExportFormat
