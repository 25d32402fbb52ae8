import LivePreview.Proofs.Diagnostic.Collection
import LivePreview.Proofs.Diagnostic.Header

/-!
# What a report says of a header

A header that says something of a document is the beginning of a diagnostic
(`Header.draft?`).  It is kept unless one that was kept before says the same of the same
place, and then the hints that follow it go to it, up to the next header
(`foldl_addLine`).
-/

namespace LivePreview.ShortForm

open Text

variable {document : Path} {line : List Char} {h : Header} {d : Diagnostic} {report : Report}

/-! ## Drafts -/

/-- What a header says of a document, before its hints are read. -/
def Header.draft? (document : Path) (h : Header) : Option Diagnostic := do
  let line ← word? h.line
  let column ← word? h.column
  let message := String.ofList h.message
  if concerns document h.file then some ⟨.point line column, h.severity, message, []⟩
  else
    match h.severity with
    | .error =>
      some ⟨.point 1 1, .error, s!"in {String.ofList h.file}:{line}:{column}: {message}", []⟩
    | .warning => none

theorem Header.of_draft? (draft : h.draft? document = some d) :
    d.hints = [] ∧ d.severity = h.severity ∧
      d.location = .point d.location.line d.location.column := by
  simp only [Header.draft?, Option.bind_eq_bind, Option.bind_eq_some_iff] at draft
  obtain ⟨l, -, c, -, draft⟩ := draft
  split at draft
  · obtain rfl := Option.some.inj draft
    exact ⟨rfl, rfl, rfl⟩
  · split at draft
    · next error =>
      obtain rfl := Option.some.inj draft
      exact ⟨rfl, error.symm, rfl⟩
    · cases draft

namespace Report

theorem has_iff : report.has d ↔ ∃ old ∈ report.diagnostics, old.Repeats d := by
  simp [has, Diagnostic.Repeats, and_assoc]

/-- How a report goes on after a header, whatever becomes of it. -/
inductive Heeds (document : Path) (report : Report) (h : Header) (next : Report) : Prop where
  | kept {d : Diagnostic} (draft : h.draft? document = some d)
      (new : ∀ old ∈ report.diagnostics, ¬ old.Repeats d)
      (diagnostics : next.diagnostics = report.diagnostics ++ [d]) (takes : next.takesHints)
  | repeated {d : Diagnostic} (draft : h.draft? document = some d)
      (old : ∃ old ∈ report.diagnostics, old.Repeats d)
      (diagnostics : next.diagnostics = report.diagnostics) (takes : next.takesHints = false)
  | silent (draft : h.draft? document = none)
      (diagnostics : next.diagnostics = report.diagnostics) (takes : next.takesHints = false)

theorem keep_heeds {start : Report} (draft : h.draft? document = some d)
    (same : start.diagnostics = report.diagnostics) :
    Heeds document report h (start.keep d) := by
  unfold keep
  split
  · next old =>
    rw [has_iff, same] at old
    exact .repeated draft old same rfl
  · next new =>
    rw [has_iff, same, not_exists] at new
    refine .kept draft (fun old mem repeats => new old ⟨mem, repeats⟩) ?_ rfl
    rw [← same]

theorem addHeader_heeds (document : Path) (report : Report) (h : Header) :
    Heeds document report h (report.addHeader document h) := by
  unfold addHeader
  cases line : word? h.line with
  | none => exact .silent (by simp [Header.draft?, line]) rfl rfl
  | some l =>
    cases column : word? h.column with
    | none => exact .silent (by simp [Header.draft?, line, column]) rfl rfl
    | some c =>
      by_cases own : concerns document h.file
      · simp only [own, if_true]
        exact keep_heeds (by simp [Header.draft?, line, column, own]) rfl
      · cases severity : h.severity with
        | error =>
          simp only [own, if_false, Bool.false_eq_true]
          exact keep_heeds (by simp [Header.draft?, line, column, own, severity]) rfl
        | warning =>
          simp only [own, if_false, Bool.false_eq_true]
          exact .silent (by simp [Header.draft?, line, column, own, severity]) rfl rfl

theorem keep_seen (report : Report) (d : Diagnostic) : (report.keep d).seen = report.seen := by
  unfold keep
  split <;> rfl

theorem addHeader_seen (document : Path) (report : Report) (h : Header) :
    (report.addHeader document h).seen = report.seen + 1 := by
  unfold addHeader
  dsimp only
  split
  · split
    · rw [keep_seen]
    · split
      · rw [keep_seen]
      · rfl
  · rfl

/-! ## Reading on -/

theorem addLine_of_hint {hint : String} (reads : hint? line = some hint) :
    report.addLine document line =
      if report.takesHints then
        { report with diagnostics := addHint hint report.diagnostics }
      else report := by
  obtain ⟨text, found, rfl⟩ := Option.map_eq_some_iff.mp reads
  rw [addLine, readLine, found]

theorem addLine_of_header (reads : lineHeader? line = some h) :
    report.addLine document line = report.addHeader document h := by
  have noHint := (lineHeader?_eq_some_iff.mp reads).noHint
  rw [lineHeader?_of_noHint noHint] at reads
  rw [addLine, readLine, Option.map_eq_none_iff.mp noHint, reads]

theorem addLine_of_other (noHint : hint? line = none) (noHeader : ¬ IsHeader line) :
    report.addLine document line = report := by
  have none : header? line = none := by
    refine Option.eq_none_iff_forall_ne_some.mpr fun h reads => noHeader ?_
    exact ⟨noHint, h, opens_of_header? reads⟩
  rw [addLine, readLine, Option.map_eq_none_iff.mp noHint, none]

theorem addHint_append (ds : List Diagnostic) (d : Diagnostic) (hint : String) :
    addHint hint (ds ++ [d]) = ds ++ [{ d with hints := d.hints ++ [hint] }] := by
  induction ds with
  | nil => rfl
  | cons e ds ih =>
    rw [List.cons_append, List.cons_append, ← ih]
    cases more : ds ++ [d] with
    | nil => exact absurd more (by simp)
    | cons => rfl

/-- Before a header is kept, nothing but headers changes a report. -/
theorem foldl_addLine_idle (idle : report.takesHints = false) {ls : List (List Char)}
    (plain : ∀ line ∈ ls, ¬ IsHeader line) :
    ls.foldl (addLine document) report = report := by
  induction ls with
  | nil => rfl
  | cons line ls ih =>
    obtain ⟨noHeader, plain⟩ := List.forall_mem_cons.mp plain
    have still : report.addLine document line = report := by
      cases reads : hint? line with
      | none => exact addLine_of_other reads noHeader
      | some hint => simp [addLine_of_hint reads, idle]
    rw [List.foldl_cons, still, ih plain]

/-- Behind a header that was kept, the hints go to its diagnostic. -/
theorem foldl_addLine_hints {ds : List Diagnostic} (takes : report.takesHints)
    (last : report.diagnostics = ds ++ [d]) {ls : List (List Char)}
    (plain : ∀ line ∈ ls, ¬ IsHeader line) :
    (ls.foldl (addLine document) report).diagnostics =
        ds ++ [{ d with hints := d.hints ++ ls.filterMap hint? }] ∧
      (ls.foldl (addLine document) report).seen = report.seen := by
  induction ls generalizing report d with
  | nil => simp [← last]
  | cons line ls ih =>
    obtain ⟨noHeader, plain⟩ := List.forall_mem_cons.mp plain
    rw [List.foldl_cons]
    cases reads : hint? line with
    | none =>
      rw [addLine_of_other reads noHeader, List.filterMap_cons_none reads]
      exact ih takes last plain
    | some hint =>
      have next := @ih _ { report with diagnostics := addHint hint report.diagnostics } takes
        (by rw [last, addHint_append]) plain
      rw [addLine_of_hint reads, if_pos takes, List.filterMap_cons_some reads]
      simpa using next

/-- A header and the lines up to the next one, whatever was read before. -/
theorem foldl_addLine (document : Path) (report : Report) {body : List (List Char)}
    (opens : lineHeader? line = some h) (plain : ∀ line ∈ body, ¬ IsHeader line) :
    ((line :: body).foldl (addLine document) report).diagnostics =
        Diagnostic.extend report.diagnostics
          ((h.draft? document).map ({ · with hints := body.filterMap hint? })) ∧
      ((line :: body).foldl (addLine document) report).seen = report.seen + 1 := by
  rw [List.foldl_cons, addLine_of_header opens, ← addHeader_seen document report h]
  cases addHeader_heeds document report h with
  | @kept d draft new diagnostics takes =>
    have read := @foldl_addLine_hints document _ _ _ takes diagnostics _ plain
    rw [(Header.of_draft? draft).1, List.nil_append] at read
    have grows := Diagnostic.extend_of_new (d := { d with hints := body.filterMap hint? }) new
    rw [draft, Option.map_some, grows]
    exact read
  | @repeated d draft old diagnostics takes =>
    have stays := Diagnostic.extend_of_repeats (d := { d with hints := body.filterMap hint? }) old
    rw [foldl_addLine_idle takes plain, draft, Option.map_some, stays]
    exact ⟨diagnostics, rfl⟩
  | silent draft diagnostics takes =>
    rw [foldl_addLine_idle takes plain, draft, Option.map_none]
    exact ⟨diagnostics, rfl⟩

/-- Reading pieces of a text one after the other, each of which has one header that leads it. -/
theorem foldl_addLine_flatMap {Piece : Type} {linesOf : Piece → List (List Char)}
    {reads : Piece → Option Diagnostic} {pieces : List Piece}
    (one : ∀ piece ∈ pieces, ∀ report : Report,
      ((linesOf piece).foldl (addLine document) report).diagnostics =
          Diagnostic.extend report.diagnostics (reads piece) ∧
        ((linesOf piece).foldl (addLine document) report).seen = report.seen + 1)
    (report : Report) :
    ((pieces.flatMap linesOf).foldl (addLine document) report).diagnostics =
        (pieces.map reads).foldl Diagnostic.extend report.diagnostics ∧
      ((pieces.flatMap linesOf).foldl (addLine document) report).seen =
        report.seen + pieces.length := by
  induction pieces generalizing report with
  | nil => exact ⟨rfl, rfl⟩
  | cons piece pieces ih =>
    obtain ⟨here, one⟩ := List.forall_mem_cons.mp one
    obtain ⟨diagnostics, seen⟩ := here report
    rw [List.flatMap_cons, List.foldl_append, List.map_cons, List.foldl_cons, ← diagnostics,
      List.length_cons]
    obtain ⟨more, count⟩ := ih one ((linesOf piece).foldl (addLine document) report)
    exact ⟨more, by omega⟩

theorem addLine_seen (document : Path) (report : Report) (line : List Char) :
    (report.addLine document line).seen = report.seen + if IsHeader line then 1 else 0 := by
  by_cases header : IsHeader line
  · obtain ⟨h, reads⟩ := isHeader_iff.mp header
    rw [addLine_of_header reads, addHeader_seen, if_pos header]
  · rw [if_neg header]
    cases reads : hint? line with
    | none => rw [addLine_of_other reads header, Nat.add_zero]
    | some hint =>
      rw [addLine_of_hint reads]
      split <;> rfl

theorem foldl_addLine_seen (document : Path) (report : Report) (ls : List (List Char)) :
    (ls.foldl (addLine document) report).seen = report.seen + ls.countP (IsHeader ·) := by
  induction ls generalizing report with
  | nil => rfl
  | cons line ls ih =>
    rw [List.foldl_cons, ih, addLine_seen, List.countP_cons]
    simp only [decide_eq_true_eq]
    omega

end Report

end LivePreview.ShortForm
