import LivePreview.Export.PageRange
import LivePreview.Path.Basic

/-!
# Export formats

The main document is exported as one PDF file, or as one SVG or PNG file a page.
`compileArguments` selects the format on the compiler's command line, and
`outputPath` completes the path that was asked for: with an extension, and with
a page placeholder when several files may be written, so that no page overwrites
another.
-/

namespace LivePreview

/-- What an export produces. -/
inductive ExportFormat where
  | pdf
  | svg (pages : Option PageRange)
  | png (pages : Option PageRange) (ppi : Nat)
  deriving DecidableEq, Repr, Inhabited

namespace ExportFormat

/-- The name of the format, which is also its extension. -/
def name : ExportFormat → String
  | .pdf => "pdf"
  | .svg _ => "svg"
  | .png _ _ => "png"

/-- The pages asked for; all of them if none are named. -/
def pages : ExportFormat → Option PageRange
  | .pdf => none
  | .svg pages => pages
  | .png pages _ => pages

def compileArguments (format : ExportFormat) : List String :=
  let resolution :=
    match format with
    | .png _ ppi => ["--ppi", toString ppi]
    | _ => []
  let pages :=
    match format.pages with
    | some range => ["--pages", range.write]
    | none => []
  ["--format", format.name] ++ resolution ++ pages

def isSingle (format : ExportFormat) : Bool :=
  match format with
  | .pdf => true
  | _ => format.pages.any PageRange.isSingle

/-- What the compiler replaces by the page number in an output path. -/
def placeholders : List String :=
  ["\x7bp\x7d", "\x7b0p\x7d"]

def hasPlaceholder (path : Path) : Bool :=
  placeholders.any fun placeholder => Text.occursIn placeholder.toList path.text.toList

/-- The requested path with the format's extension, if it has none. -/
def withExtension (format : ExportFormat) (requested : Path) : Path :=
  match requested.extension? with
  | some _ => requested
  | none => requested.setExtension format.name

def outputPath (format : ExportFormat) (requested : Path) : Path :=
  let path := format.withExtension requested
  if format.isSingle || hasPlaceholder path then path
  else path.setFileName (path.stem?.getD "" ++ "-\x7bp\x7d." ++ format.name)

end ExportFormat

end LivePreview
