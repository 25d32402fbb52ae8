import LivePreview.Interchange
import LivePreview.Proofs.Json.Layout

/-!
# Reading back what was written

Each kind of value is read from the JSON value that is written for it, and that value is one that
can be read from its text.  So what is printed is read as what was written (`written_reads_back`).
Numbers have to fit (`Fits`): they are words, a resolution is half a word, and a coordinate is any
number that reads back from its own text.
-/

namespace LivePreview

open Json (Fields Readable)

namespace Json

theorem word?_nat {n : Nat} (fits : n < Text.wordLimit) : word? (nat n) = some n := by
  simp [word?, natBelow?, nat, nat?, Option.filter, fits]

theorem list?_ofList {α : Type} {encode : α → Json} {decode : Json → Option α}
    (items : List α) (each : ∀ a ∈ items, decode (encode a) = some a) :
    list? decode (ofList encode items) = some items := by
  show (items.map encode).mapM decode = some items
  induction items with
  | nil => rfl
  | cons a items ih =>
    rw [List.map_cons, List.mapM_cons, each a List.mem_cons_self,
      ih fun b mem => each b (List.mem_cons_of_mem _ mem)]
    rfl

theorem nullable_ofOption {α : Type} {encode : α → Json} {decode : Json → Option α} (a? : Option α)
    (each : ∀ a ∈ a?, decode (encode a) = some a ∧ encode a ≠ .null) :
    Fields.nullable decode (ofOption encode a?) = some a? := by
  cases a? with
  | none => rfl
  | some a =>
    obtain ⟨reads, filled⟩ := each a rfl
    rw [ofOption, Fields.nullable, reads]
    · rfl
    · exact filled

end Json

/-! ## Numbers that fit -/

/-- Whether the numbers of a location are words. -/
structure Location.Fits (location : Location) : Prop where
  line : location.line < Text.wordLimit
  column : location.column < Text.wordLimit
  endLine : location.endLine < Text.wordLimit
  endColumn : location.endColumn < Text.wordLimit

structure PageRange.Fits (range : PageRange) : Prop where
  start : range.start < Text.wordLimit
  stop : range.stop < Text.wordLimit

/-- Whether the numbers of a format are words, and the resolution half a word. -/
def ExportFormat.Fits : ExportFormat → Prop
  | .pdf => True
  | .svg pages => ∀ range ∈ pages, range.Fits
  | .png pages ppi => (∀ range ∈ pages, range.Fits) ∧ ppi < Text.halfWordLimit

def Jump.Fits : Jump → Prop
  | .file _ byte => byte < Text.wordLimit
  | .position target => target.page < Text.wordLimit ∧ (Json.Number.float target.x).Reads ∧
    (Json.Number.float target.y).Reads
  | .url _ => True
  | .nowhere => True

/-! ## Values -/

theorem Severity.ofJson?_toJson (severity : Severity) :
    ofJson? severity.toJson = some severity := by
  cases severity <;> rfl

theorem Location.ofJson?_toJson {location : Location} (fits : location.Fits) :
    ofJson? location.toJson = some location := by
  simp [ofJson?, toJson, Fields.ofJson?, Fields.required, Fields.find?, Json.member?,
    Json.word?_nat fits.line, Json.word?_nat fits.column, Json.word?_nat fits.endLine,
    Json.word?_nat fits.endColumn]

theorem Diagnostic.ofJson?_toJson {d : Diagnostic} (fits : d.location.Fits) :
    ofJson? d.toJson = some d := by
  have hints : Json.list? Json.string? (.ofList .string d.hints) = some d.hints :=
    Json.list?_ofList d.hints fun _ _ => rfl
  simp [ofJson?, toJson, Fields.ofJson?, Fields.required, Fields.defaulted, Fields.find?,
    Json.member?, Location.ofJson?_toJson fits, Severity.ofJson?_toJson, Json.string?, hints]

theorem PageRange.ofJson?_toJson {range : PageRange} (fits : range.Fits) :
    ofJson? range.toJson = some range := by
  simp [ofJson?, toJson, Fields.ofJson?, Fields.required, Fields.find?, Json.member?,
    Json.word?_nat fits.start, Json.word?_nat fits.stop]

theorem PageRange.nullable_toJson {pages : Option PageRange} (fit : ∀ range ∈ pages, range.Fits) :
    Fields.nullable ofJson? (.ofOption toJson pages) = some pages :=
  Json.nullable_ofOption pages fun range mem => ⟨ofJson?_toJson (fit range mem), nofun⟩

theorem ExportFormat.ofJson?_toJson {format : ExportFormat} (fits : format.Fits) :
    ofJson? format.toJson = some format := by
  cases format with
  | pdf => rfl
  | svg pages =>
    simp [ofJson?, toJson, Json.untag?, Json.member?, Json.string?, Fields.ofJson?,
      Fields.optional, Fields.find?, PageRange.nullable_toJson fits]
  | png pages ppi =>
    simp [ofJson?, toJson, Json.untag?, Json.member?, Json.string?, Fields.ofJson?,
      Fields.optional, Fields.required, Fields.find?, PageRange.nullable_toJson fits.1,
      Json.natBelow?, Json.nat, Json.nat?, Option.filter, fits.2]

theorem Position.ofJson?_members {p : Position} (fits : p.page < Text.wordLimit) :
    ofJson? (.object p.members) = some p := by
  simp [ofJson?, members, Fields.ofJson?, Fields.required, Fields.find?, Json.member?,
    Json.word?_nat fits, Json.float, Json.float?]

theorem Jump.ofJson?_toJson {jump : Jump} (fits : jump.Fits) :
    ofJson? jump.toJson = some jump := by
  cases jump with
  | file path byte =>
    have fits : byte < Text.wordLimit := fits
    simp [ofJson?, toJson, Json.untag?, Json.member?, Json.string?, Fields.ofJson?,
      Fields.required, Fields.find?, Json.word?_nat fits]
  | position target =>
    have untagged : Json.untag? "type" (toJson (.position target)) =
        some ("PositionJump", .object target.members) := rfl
    simp [ofJson?, untagged, Position.ofJson?_members fits.1]
  | url link =>
    simp [ofJson?, toJson, Json.untag?, Json.member?, Json.string?, Fields.ofJson?,
      Fields.required, Fields.find?]
  | nowhere => rfl

/-! ## Texts -/

namespace Json

theorem readable_nat {n : Nat} (fits : n < Text.wordLimit) : Readable (nat n) :=
  .number (natural_reads fits)

theorem readable_ofOption {α : Type} {encode : α → Json} (a? : Option α)
    (each : ∀ a ∈ a?, Readable (encode a)) : Readable (ofOption encode a?) := by
  cases a? with
  | none => exact .null
  | some a => exact each a rfl

theorem readable_ofList {α : Type} {encode : α → Json} (items : List α)
    (each : ∀ a ∈ items, Readable (encode a)) : Readable (ofList encode items) := by
  refine .array fun item mem => ?_
  obtain ⟨a, known, rfl⟩ := List.mem_map.mp mem
  exact each a known

end Json

theorem Severity.readable (severity : Severity) : Readable severity.toJson := by
  cases severity <;> exact .string _

theorem Location.readable {location : Location} (fits : location.Fits) :
    Readable location.toJson := by
  refine .object (by simp) ?_
  simp only [List.forall_mem_cons]
  exact ⟨Json.readable_nat fits.line, Json.readable_nat fits.column,
    Json.readable_nat fits.endLine, Json.readable_nat fits.endColumn, nofun⟩

theorem Diagnostic.readable {d : Diagnostic} (fits : d.location.Fits) : Readable d.toJson := by
  refine .object (by simp) ?_
  simp only [List.forall_mem_cons]
  exact ⟨Location.readable fits, Severity.readable _, .string _,
    Json.readable_ofList _ fun hint _ => .string hint, nofun⟩

theorem PageRange.readable {range : PageRange} (fits : range.Fits) : Readable range.toJson := by
  refine .object (by simp) ?_
  simp only [List.forall_mem_cons]
  exact ⟨Json.readable_nat fits.start, Json.readable_nat fits.stop, nofun⟩

theorem PageRange.readable_pages {pages : Option PageRange} (fit : ∀ range ∈ pages, range.Fits) :
    Readable (.ofOption toJson pages) :=
  Json.readable_ofOption pages fun range mem => readable (fit range mem)

theorem ExportFormat.readable {format : ExportFormat} (fits : format.Fits) :
    Readable format.toJson := by
  cases format <;> refine .object (by simp) ?_ <;> simp only [List.forall_mem_cons]
  case pdf => exact ⟨.string _, nofun⟩
  case svg pages => exact ⟨.string _, PageRange.readable_pages fits, nofun⟩
  case png pages ppi =>
    have word : ppi < Text.wordLimit := Nat.lt_trans fits.2 (by decide)
    exact ⟨.string _, PageRange.readable_pages fits.1, Json.readable_nat word, nofun⟩

theorem Jump.readable {jump : Jump} (fits : jump.Fits) : Readable jump.toJson := by
  cases jump <;> refine .object (by simp [Position.members]) ?_ <;>
    simp only [Position.members, List.forall_mem_cons]
  case file path byte => exact ⟨.string _, .string _, Json.readable_nat fits, nofun⟩
  case position target =>
    exact ⟨.string _, Json.readable_nat fits.1, .number fits.2.1, .number fits.2.2, nofun⟩
  case url link => exact ⟨.string _, .string _, nofun⟩
  case nowhere => exact ⟨.string _, nofun⟩

/-! ## Tags -/

namespace Json

variable {tag kind kind' : String} {rest rest' : List (String × Json)}

theorem kind_of_chars {front more more' : List Char}
    (same : front ++ (quoted kind ++ more) = front ++ (quoted kind' ++ more')) : kind = kind' := by
  rw [List.append_cancel_left_eq, quoted_append, quoted_append, List.cons.injEq] at same
  have strings := congrArg (readString? []) same.2
  rw [readString?_escaped, readString?_escaped, Option.some.injEq, Prod.mk.injEq] at strings
  exact strings.1

theorem compactChars_tagged (tag kind : String) (rest : List (String × Json)) :
    ∃ more, compactChars (.object ((tag, .string kind) :: rest)) =
      '\x7b' :: (quoted tag ++ [':']) ++ (quoted kind ++ more) := by
  cases rest <;> exact ⟨_, by simp [compactChars, compactMembers]; rfl⟩

theorem prettyChars_tagged (tag kind : String) (rest : List (String × Json)) :
    ∃ more, prettyChars 0 (.object ((tag, .string kind) :: rest)) =
      '\x7b' :: (newline 1 ++ quoted tag ++ [':', ' ']) ++ (quoted kind ++ more) := by
  cases rest <;> exact ⟨_, by simp [prettyChars, prettyMembers]; rfl⟩

/-- Records of different kinds have different texts. -/
theorem kind_of_text
    (same : compact (.object ((tag, .string kind) :: rest)) =
        compact (.object ((tag, .string kind') :: rest')) ∨
      pretty (.object ((tag, .string kind) :: rest)) =
        pretty (.object ((tag, .string kind') :: rest'))) : kind = kind' := by
  rcases same with same | same
  · obtain ⟨more, text⟩ := compactChars_tagged tag kind rest
    obtain ⟨more', text'⟩ := compactChars_tagged tag kind' rest'
    rw [compact, compact, String.ofList_inj, text, text'] at same
    exact kind_of_chars same
  · obtain ⟨more, text⟩ := prettyChars_tagged tag kind rest
    obtain ⟨more', text'⟩ := prettyChars_tagged tag kind' rest'
    rw [pretty, pretty, String.ofList_inj, text, text'] at same
    exact kind_of_chars same

end Json

theorem ExportFormat.toJson_tagged (format : ExportFormat) :
    ∃ rest, format.toJson = .object (("format", .string format.name) :: rest) := by
  cases format <;> exact ⟨_, rfl⟩

def Jump.tag : Jump → String
  | .file .. => "FileJump"
  | .position _ => "PositionJump"
  | .url _ => "UrlJump"
  | .nowhere => "NoJump"

theorem Jump.toJson_tagged (jump : Jump) :
    ∃ rest, jump.toJson = .object (("type", .string jump.tag) :: rest) := by
  cases jump <;> exact ⟨_, rfl⟩

theorem Jump.label_of_tag {j k : Jump} (same : j.tag = k.tag) : j.label = k.label := by
  cases j <;> cases k <;> first | rfl | simp [tag] at same

/-! ## Missing hints -/

namespace Json

theorem member?_filter_ne {name other : String} (differs : name ≠ other)
    (members : List (String × Json)) :
    member? (members.filter fun member => member.1 ≠ other) name = member? members name := by
  rw [member?, member?, List.find?_filter]
  congr 2
  funext member
  by_cases here : member.1 = name <;> simp [here, differs]

theorem member?_filter_self (name : String) (members : List (String × Json)) :
    member? (members.filter fun member => member.1 ≠ name) name = none := by
  rw [member?, Option.map_eq_none_iff, List.find?_eq_none]
  intro member mem
  simpa using (List.mem_filter.mp mem).2

end Json

/-- Without a member for them, there are no hints. -/
theorem Diagnostic.ofJson?_without_hints {members : List (String × Json)} {d : Diagnostic}
    (reads : ofJson? (.object members) = some d) :
    ofJson? (.object (members.filter fun member => member.1 ≠ "hints")) =
      some { d with hints := [] } := by
  have kept (name : String) (differs : name ≠ "hints") := Json.member?_filter_ne differs members
  simp only [ofJson?, Fields.ofJson?, Fields.required, Fields.defaulted, Fields.find?,
    Option.bind_eq_bind, Option.bind_some] at reads ⊢
  rw [kept "location" (by decide), kept "severity" (by decide), kept "message" (by decide),
    Json.member?_filter_self]
  simp only [Option.bind_eq_some_iff] at reads ⊢
  obtain ⟨location, first, severity, second, message, third, hints, fourth, same⟩ := reads
  obtain rfl := Option.some.inj same
  exact ⟨location, first, severity, second, message, third, [], rfl, rfl⟩

/-- What a diagnostic is without its hints. -/
def Diagnostic.unhinted (d : Diagnostic) : Json :=
  .object [("location", d.location.toJson), ("severity", d.severity.toJson),
    ("message", .string d.message)]

theorem Diagnostic.ofJson?_unhinted {d : Diagnostic} (fits : d.location.Fits) :
    ofJson? d.unhinted = some { d with hints := [] } :=
  ofJson?_without_hints (ofJson?_toJson fits)

theorem Diagnostic.readable_unhinted {d : Diagnostic} (fits : d.location.Fits) :
    Readable d.unhinted := by
  refine .object (by simp) ?_
  simp only [List.forall_mem_cons]
  exact ⟨Location.readable fits, Severity.readable _, .string _, nofun⟩

/-! ## Reading back -/

/-- Whether what is printed of a JSON value, on one line or on several, is read as `a`. -/
def Json.ReadsAs {α : Type} (decode : Json → Option α) (value : Json) (a : α) : Prop :=
  (read? value.compact).bind decode = some a ∧ (read? value.pretty).bind decode = some a

theorem Json.Readable.readsAs {α : Type} {decode : Json → Option α} {value : Json} {a : α}
    (readable : Readable value) (decodes : decode value = some a) : ReadsAs decode value a := by
  obtain ⟨compact, pretty⟩ := read?_printed readable
  exact ⟨by rw [compact]; exact decodes, by rw [pretty]; exact decodes⟩

/-- Everything that is written is read back as it was: its numbers, if they fit, its texts, and the
    choices in it, which have different texts.  A diagnostic that is written without hints is read
    as one that has none. -/
theorem written_reads_back :
    (∀ severity : Severity, Json.ReadsAs Severity.ofJson? severity.toJson severity) ∧
    (∀ location : Location, location.Fits →
      Json.ReadsAs Location.ofJson? location.toJson location) ∧
    (∀ d : Diagnostic, d.location.Fits → Json.ReadsAs Diagnostic.ofJson? d.toJson d) ∧
    (∀ range : PageRange, range.Fits → Json.ReadsAs PageRange.ofJson? range.toJson range) ∧
    (∀ format : ExportFormat, format.Fits →
      Json.ReadsAs ExportFormat.ofJson? format.toJson format) ∧
    (∀ jump : Jump, jump.Fits → Json.ReadsAs Jump.ofJson? jump.toJson jump) ∧
    (∀ f g : ExportFormat, f.toJson.compact = g.toJson.compact ∨ f.toJson.pretty = g.toJson.pretty →
      f.name = g.name) ∧
    (∀ j k : Jump, j.toJson.compact = k.toJson.compact ∨ j.toJson.pretty = k.toJson.pretty →
      j.label = k.label) ∧
    (∀ d : Diagnostic, d.location.Fits →
      Json.ReadsAs Diagnostic.ofJson? d.unhinted { d with hints := [] }) ∧
    ∀ members d, Diagnostic.ofJson? (.object members) = some d →
      Diagnostic.ofJson? (.object (members.filter fun member => member.1 ≠ "hints")) =
        some { d with hints := [] } := by
  refine ⟨fun severity => severity.readable.readsAs severity.ofJson?_toJson,
    fun location fits => (Location.readable fits).readsAs (Location.ofJson?_toJson fits),
    fun d fits => (Diagnostic.readable fits).readsAs (Diagnostic.ofJson?_toJson fits),
    fun range fits => (PageRange.readable fits).readsAs (PageRange.ofJson?_toJson fits),
    fun format fits => (ExportFormat.readable fits).readsAs (ExportFormat.ofJson?_toJson fits),
    fun jump fits => (Jump.readable fits).readsAs (Jump.ofJson?_toJson fits),
    fun f g same => ?_, fun j k same => ?_,
    fun d fits => (Diagnostic.readable_unhinted fits).readsAs (Diagnostic.ofJson?_unhinted fits),
    fun members d reads => Diagnostic.ofJson?_without_hints reads⟩
  · obtain ⟨rest, first⟩ := f.toJson_tagged
    obtain ⟨rest', second⟩ := g.toJson_tagged
    rw [first, second] at same
    exact Json.kind_of_text same
  · obtain ⟨rest, first⟩ := j.toJson_tagged
    obtain ⟨rest', second⟩ := k.toJson_tagged
    rw [first, second] at same
    exact Jump.label_of_tag (Json.kind_of_text same)

/-- A diagnostic with quotes, control characters and the largest number. -/
def roughDiagnostic : Diagnostic where
  location := ⟨1, 0, 18446744073709551615, 7⟩
  severity := .warning
  message := "\"q\"\n\t\x01"
  hints := ["", "é\\"]

/-- A format with the largest numbers. -/
def largeFormat : ExportFormat :=
  .png (some ⟨1, 18446744073709551615⟩) (4294967295)

theorem rare_values_read_back :
    (roughDiagnostic.location.Fits ∧
      Json.ReadsAs Diagnostic.ofJson? roughDiagnostic.toJson roughDiagnostic ∧
      Json.ReadsAs Diagnostic.ofJson? roughDiagnostic.unhinted
        { roughDiagnostic with hints := [] }) ∧
    (largeFormat.Fits ∧ Json.ReadsAs ExportFormat.ofJson? largeFormat.toJson largeFormat) ∧
    (Jump.position ⟨3, 10.0, 0.25⟩).Fits ∧
      Json.ReadsAs Jump.ofJson? (Jump.position ⟨3, 10.0, 0.25⟩).toJson
        (.position ⟨3, 10.0, 0.25⟩) := by
  have location : roughDiagnostic.location.Fits := ⟨by decide, by decide, by decide, by decide⟩
  have format : largeFormat.Fits := by
    refine ⟨fun range mem => ?_, by decide⟩
    obtain rfl := Option.some.inj mem
    exact ⟨by decide, by decide⟩
  have jump : (Jump.position ⟨3, 10.0, 0.25⟩).Fits := ⟨by decide, rfl, rfl⟩
  obtain ⟨-, -, diagnostics, -, formats, jumps, -, -, unhinted, -⟩ := written_reads_back
  exact ⟨⟨location, diagnostics _ location, unhinted _ location⟩, ⟨format, formats _ format⟩,
    jump, jumps _ jump⟩

end LivePreview
