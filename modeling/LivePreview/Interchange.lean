import LivePreview.Diagnostic.Marker
import LivePreview.Export.Format
import LivePreview.Json.Record
import LivePreview.Position
import LivePreview.Text.Digits

/-!
# The interchange form of the domain values

How diagnostics, page ranges, export formats, positions and jumps are written as
JSON and read back.  Fields have the names of the interchange format; choices are
tagged with `format` or `type`.
-/

namespace LivePreview

open Json (Fields)

def Json.word? : Json → Option Nat :=
  Json.natBelow? Text.wordLimit

/-! ## Diagnostics -/

namespace Severity

def toJson : Severity → Json
  | .error => .string "Error"
  | .warning => .string "Warning"

def ofJson? (value : Json) : Option Severity :=
  match Json.choiceName? value with
  | some "Error" => some .error
  | some "Warning" => some .warning
  | _ => none

end Severity

namespace Location

def toJson (location : Location) : Json :=
  .object [("line", .nat location.line), ("column", .nat location.column),
    ("end_line", .nat location.endLine), ("end_column", .nat location.endColumn)]

def ofJson? (value : Json) : Option Location := do
  let fields ← Fields.ofJson? 4 value
  let line ← fields.required 0 "line" Json.word?
  let column ← fields.required 1 "column" Json.word?
  let endLine ← fields.required 2 "end_line" Json.word?
  let endColumn ← fields.required 3 "end_column" Json.word?
  pure ⟨line, column, endLine, endColumn⟩

end Location

namespace Diagnostic

def toJson (d : Diagnostic) : Json :=
  .object [("location", d.location.toJson), ("severity", d.severity.toJson),
    ("message", .string d.message), ("hints", .ofList .string d.hints)]

def ofJson? (value : Json) : Option Diagnostic := do
  let fields ← Fields.ofJson? 4 value
  let location ← fields.required 0 "location" Location.ofJson?
  let severity ← fields.required 1 "severity" Severity.ofJson?
  let message ← fields.required 2 "message" Json.string?
  let hints ← fields.defaulted 3 "hints" (Json.list? Json.string?) []
  pure ⟨location, severity, message, hints⟩

end Diagnostic

def Marker.toJson (marker : Marker) : Json :=
  .object [("start", .nat marker.start), ("end", .nat marker.stop),
    ("severity", marker.severity.toJson), ("message", .string marker.message)]

/-! ## Exports -/

namespace PageRange

def toJson (range : PageRange) : Json :=
  .object [("start", .nat range.start), ("end", .nat range.stop)]

/-- Any two numbers are read, whether they make a valid range or not. -/
def ofJson? (value : Json) : Option PageRange := do
  let fields ← Fields.ofJson? 2 value
  let start ← fields.required 0 "start" Json.word?
  let stop ← fields.required 1 "end" Json.word?
  pure ⟨start, stop⟩

end PageRange

namespace ExportFormat

def toJson : ExportFormat → Json
  | .pdf => .object [("format", .string "pdf")]
  | .svg pages =>
    .object [("format", .string "svg"), ("pages", .ofOption PageRange.toJson pages)]
  | .png pages ppi =>
    .object [("format", .string "png"), ("pages", .ofOption PageRange.toJson pages),
      ("ppi", .nat ppi)]

def ofJson? (value : Json) : Option ExportFormat := do
  let (tag, rest) ← Json.untag? "format" value
  match tag with
  | "pdf" => if Json.isBare rest then some .pdf else none
  | "svg" =>
    let fields ← Fields.ofJson? 1 rest
    pure (.svg (← fields.optional 0 "pages" PageRange.ofJson?))
  | "png" =>
    let fields ← Fields.ofJson? 2 rest
    let pages ← fields.optional 0 "pages" PageRange.ofJson?
    let ppi ← fields.required 1 "ppi" (Json.natBelow? Text.halfWordLimit)
    pure (.png pages ppi)
  | _ => none

end ExportFormat

/-! ## Places -/

namespace Position

def members (p : Position) : List (String × Json) :=
  [("page", .nat p.page), ("x", .float p.x), ("y", .float p.y)]

def toJson (p : Position) : Json :=
  .object p.members

def ofJson? (value : Json) : Option Position := do
  let fields ← Fields.ofJson? 3 value
  let page ← fields.required 0 "page" Json.word?
  let x ← fields.required 1 "x" Json.float?
  let y ← fields.required 2 "y" Json.float?
  pure ⟨page, x, y⟩

end Position

namespace Jump

def toJson : Jump → Json
  | .file path byte =>
    .object [("type", .string "FileJump"), ("file", .string path.text), ("position", .nat byte)]
  | .position target => .object (("type", .string "PositionJump") :: target.members)
  | .url link => .object [("type", .string "UrlJump"), ("url", .string link)]
  | .nowhere => .object [("type", .string "NoJump")]

def ofJson? (value : Json) : Option Jump := do
  let (tag, rest) ← Json.untag? "type" value
  match tag with
  | "FileJump" =>
    let fields ← Fields.ofJson? 2 rest
    let path ← fields.required 0 "file" Json.string?
    let byte ← fields.required 1 "position" Json.word?
    pure (.file ⟨path⟩ byte)
  | "PositionJump" => (Position.ofJson? rest).map .position
  | "UrlJump" =>
    let fields ← Fields.ofJson? 1 rest
    pure (.url (← fields.required 0 "url" Json.string?))
  | "NoJump" => if Json.isBare rest then some .nowhere else none
  | _ => none

end Jump

end LivePreview
