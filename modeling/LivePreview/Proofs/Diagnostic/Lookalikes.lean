import LivePreview.Proofs.Diagnostic.Report

/-!
# Errors that are reported

An error is reported, unless a warning before it reads the same at the same place
(`error_reported`): of two headers that differ in nothing but their severity only the first one
is kept, so that an error behind such a warning is lost (`error_behind_warning_lost`).
-/

namespace LivePreview.ShortForm

open Text

variable {document : Path} {h : Header} {d : Diagnostic} {report : Report}

/-- What a line says of a document, but for the hints behind it. -/
def said? (document : Path) (line : List Char) : Option Diagnostic :=
  (lineHeader? line).bind (·.draft? document)

namespace Report

theorem addHeader_diagnostics (document : Path) (report : Report) (h : Header) :
    (report.addHeader document h).diagnostics =
      Diagnostic.extend report.diagnostics (h.draft? document) := by
  cases addHeader_heeds document report h with
  | kept draft new diagnostics takes => rw [diagnostics, draft, Diagnostic.extend_of_new new]
  | repeated draft old diagnostics takes =>
    rw [diagnostics, draft, Diagnostic.extend_of_repeats old]
  | silent draft diagnostics takes =>
    rw [diagnostics, draft]
    rfl

theorem map_bare_addHint (hint : String) (ds : List Diagnostic) :
    (addHint hint ds).map Diagnostic.bare = ds.map Diagnostic.bare := by
  rcases List.eq_nil_or_concat ds with rfl | ⟨ds, d, rfl⟩
  · rfl
  · rw [List.concat_eq_append, addHint_append]
    simp [Diagnostic.bare]

/-- But for their hints, the diagnostics are those that the lines say one by one. -/
theorem map_bare_addLine (document : Path) (report : Report) (line : List Char) :
    (report.addLine document line).diagnostics.map Diagnostic.bare =
      Diagnostic.extend (report.diagnostics.map Diagnostic.bare) (said? document line) := by
  rw [said?]
  cases header : lineHeader? line with
  | some h =>
    have bare : (h.draft? document).map Diagnostic.bare = h.draft? document := by
      cases draft : h.draft? document with
      | none => rfl
      | some d =>
        have hints := (Header.of_draft? draft).1
        rw [Option.map_some, Diagnostic.bare, ← hints]
    rw [addLine_of_header header, addHeader_diagnostics, Diagnostic.map_bare_extend, bare]
    rfl
  | none =>
    rw [Option.bind_none, Diagnostic.extend]
    cases reads : hint? line with
    | none =>
      have noHeader : ¬ IsHeader line := by
        simp [isHeader_iff, header]
      rw [addLine_of_other reads noHeader]
    | some hint =>
      rw [addLine_of_hint reads]
      split
      · exact map_bare_addHint hint _
      · rfl

theorem map_bare_foldl_addLine (document : Path) (report : Report) (ls : List (List Char)) :
    (ls.foldl (addLine document) report).diagnostics.map Diagnostic.bare =
      (ls.map (said? document)).foldl Diagnostic.extend
        (report.diagnostics.map Diagnostic.bare) := by
  induction ls generalizing report with
  | nil => rfl
  | cons line ls ih => rw [List.foldl_cons, ih, map_bare_addLine, List.map_cons, List.foldl_cons]

end Report

theorem map_bare_read (stderr : String) (document : Path) :
    (read stderr document).diagnostics.map Diagnostic.bare =
      Diagnostic.collect ((lines (dropColours stderr.toList)).map (said? document)) :=
  Report.map_bare_foldl_addLine document {} _

theorem said?_eq_some_iff {line : List Char} :
    said? document line = some d ↔ ∃ h : Header, h.Leads line ∧ h.draft? document = some d := by
  simp only [said?, Option.bind_eq_some_iff, lineHeader?_eq_some_iff]

/-- What an error says of a document: its own place and message, or, from another file, the
    start of the document with the place in the message. -/
theorem Header.draft?_of_error (document : Path) {l c : Nat} (severity : h.severity = .error)
    (line : word? h.line = some l) (column : word? h.column = some c) :
    h.draft? document = some
      { location := if concerns document h.file then .point l c else .point 1 1
        severity := .error
        message :=
          if concerns document h.file then String.ofList h.message
          else s!"in {String.ofList h.file}:{l}:{c}: {String.ofList h.message}"
        hints := [] } := by
  rw [Header.draft?, line, column]
  by_cases own : concerns document h.file
  · simp [own, severity]
  · simp [own, severity]

/-- What a line says is kept, as that line or one before it says it. -/
theorem exists_repeats_read {stderr : String} {front back : List (List Char)} {line : List Char}
    (cut : lines (dropColours stderr.toList) = front ++ line :: back)
    (reads : said? document line = some d) :
    ∃ kept ∈ (read stderr document).diagnostics, kept.Repeats d ∧
      ∃ source ∈ front ++ [line], said? document source = some kept.bare := by
  have known : d ∈ ((front ++ [line]).map (said? document)).reduceOption := by
    rw [List.reduceOption_mem_iff, ← reads]
    exact List.mem_map_of_mem (List.mem_append_right _ List.mem_cons_self)
  obtain ⟨old, mem, repeats⟩ :=
    (Diagnostic.exists_repeats_collect_iff _ d).mpr ⟨d, known, rfl, rfl, rfl⟩
  have stays : old ∈ (read stderr document).diagnostics.map Diagnostic.bare := by
    rw [map_bare_read, cut, List.append_cons, List.map_append]
    exact (Diagnostic.collect_prefix_append _ _).subset mem
  obtain ⟨kept, inReport, rfl⟩ := List.mem_map.mp stays
  exact ⟨kept, inReport, repeats, List.mem_map.mp (Diagnostic.some_mem_of_mem_collect mem)⟩

/-- An error whose numbers fit is reported with its message at its place, or, if it is of another
    file, at the start of the document with the place in the message.  It is reported as an
    error, unless a warning before it says of the document what the report keeps. -/
theorem error_reported (document : Path) {stderr : String} {front back : List (List Char)}
    {line : List Char} {l c : Nat} (cut : lines (dropColours stderr.toList) = front ++ line :: back)
    (leads : h.Leads line) (severity : h.severity = .error) (lineNumber : Denotes h.line l)
    (lineFits : l < wordLimit) (columnNumber : Denotes h.column c) (columnFits : c < wordLimit) :
    ∃ d ∈ (read stderr document).diagnostics,
      d.location = (if concerns document h.file then .point l c else .point 1 1) ∧
      d.message =
        (if concerns document h.file then String.ofList h.message
        else s!"in {String.ofList h.file}:{l}:{c}: {String.ofList h.message}") ∧
      (d.severity = .error ∨
        ∃ earlier ∈ front, ∃ w : Header, w.Leads earlier ∧ w.severity = .warning ∧
          w.draft? document = some d.bare) := by
  have draft := Header.draft?_of_error document severity
    ((word?_eq_some_iff leads.opens.line).mpr ⟨lineNumber, lineFits⟩)
    ((word?_eq_some_iff leads.opens.column).mpr ⟨columnNumber, columnFits⟩)
  have reads := said?_eq_some_iff.mpr ⟨h, leads, draft⟩
  obtain ⟨kept, mem, ⟨sameLine, sameColumn, sameMessage⟩, source, inside, own⟩ :=
    exists_repeats_read cut reads
  obtain ⟨w, wLeads, wDraft⟩ := said?_eq_some_iff.mp own
  obtain ⟨-, wSeverity, point⟩ := Header.of_draft? wDraft
  refine ⟨kept, mem, ?_, sameMessage, ?_⟩
  · have place : kept.location = .point kept.location.line kept.location.column := point
    rw [place, sameLine, sameColumn]
    split <;> rfl
  · rcases List.mem_append.mp inside with before | here
    · -- it was said before, by a line that may have been a warning
      cases kind : w.severity with
      | error => exact .inl (wSeverity.trans kind)
      | warning => exact .inr ⟨source, before, w, wLeads, kind, wDraft⟩
    · rw [List.mem_singleton.mp here, reads] at own
      exact .inl (congrArg Diagnostic.severity (Option.some.inj own)).symm

/-- An error of an imported file whose message quotes another one, behind a warning of that
    file at the same place. -/
def importedReport : String :=
  "\x1b[33mlib.typ:2:07: warning: a\x1b[0m\r\nlib.typ:2:07: error: b.typ:1:1: error: a\r\n"

theorem imported_error_reported :
    ∃ d ∈ (read importedReport ⟨"main.typ"⟩).diagnostics,
      d.location = .point 1 1 ∧ d.message = "in lib.typ:2:7: b.typ:1:1: error: a" ∧
        d.severity = .error := by
  let front : List (List Char) := ["lib.typ:2:07: warning: a".toList]
  let line := "lib.typ:2:07: error: b.typ:1:1: error: a".toList
  let header : Header :=
    ⟨"lib.typ".toList, "2".toList, "07".toList, .error, "b.typ:1:1: error: a".toList⟩
  have cut : lines (dropColours importedReport.toList) = front ++ line :: [] := by decide +kernel
  have leads : header.Leads line := lineHeader?_eq_some_iff.mp (by decide +kernel)
  have lineNumber : Denotes "2".toList 2 := ⟨by simp, by decide⟩
  have columnNumber : Denotes "07".toList 7 := ⟨by simp, by decide⟩
  have foreign : concerns ⟨"main.typ"⟩ header.file = false := by decide +kernel
  have silent : ∀ earlier ∈ front, said? ⟨"main.typ"⟩ earlier = none := by decide +kernel
  obtain ⟨d, mem, location, message, severity | ⟨earlier, before, w, wLeads, -, draft⟩⟩ :=
    error_reported ⟨"main.typ"⟩ cut leads rfl
      lineNumber (by decide) columnNumber (by decide)
  · rw [foreign] at location message
    exact ⟨d, mem, location, message, severity⟩
  · have reads := said?_eq_some_iff.mpr ⟨w, wLeads, draft⟩
    rw [silent earlier before] at reads
    cases reads

/-- A warning, and an error that reads the same at the same place. -/
def lookalikes : String :=
  "main.typ:1:1: warning: x\nmain.typ:1:1: error: x\n"

/-- Of the two only the warning is kept. -/
theorem error_behind_warning_lost :
    "main.typ:1:1: error: x".toList ∈ lines (dropColours lookalikes.toList) ∧
      (Header.mk "main.typ".toList "1".toList "1".toList .error "x".toList).Leads
        "main.typ:1:1: error: x".toList ∧
      Denotes "1".toList 1 ∧ concerns ⟨"main.typ"⟩ "main.typ".toList ∧
      ¬ ∃ d ∈ (read lookalikes ⟨"main.typ"⟩).diagnostics, d.severity = .error := by
  refine ⟨by decide +kernel, lineHeader?_eq_some_iff.mp (by decide +kernel), ?_,
    by decide +kernel, by decide +kernel⟩
  exact ⟨by simp, by decide⟩

end LivePreview.ShortForm
