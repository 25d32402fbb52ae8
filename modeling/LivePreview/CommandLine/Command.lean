import LivePreview.Export.Format

/-!
# Commands

What a user asks for on the command line: one of three commands on a document, with
overrides of the configuration.
-/

namespace LivePreview.CommandLine

/-- When output is coloured. -/
inductive ColourChoice where
  | auto
  | always
  | never
  deriving DecidableEq, Repr, Inhabited

/-- How a preview is reported. -/
inductive ReportFormat where
  | text
  | json
  deriving DecidableEq, Repr, Inhabited

/-- What an export produces. -/
inductive ExportKind where
  | pdf
  | svg
  | png
  deriving DecidableEq, Repr, Inhabited

/-- The document of a command and the options that all commands have. -/
structure DocumentOptions where
  file : Path
  root : Option Path
  cursor : Option Nat
  typst : Option String
  ppi : Option Nat
  timeout : Option Nat
  deriving DecidableEq, Repr

/-- What to do with the document. -/
inductive Command where
  /-- Compile and render it once. -/
  | preview (format : ReportFormat)
  /-- Compile it whenever it changes. -/
  | watch (debounce : Option Nat)
  | export (kind : ExportKind) (pages : Option PageRange) (output : Option Path)
  deriving DecidableEq, Repr

/-- A command line. -/
structure Invocation where
  colour : ColourChoice
  verbose : Bool
  config : Path
  document : DocumentOptions
  command : Command
  deriving DecidableEq, Repr

/-- The name of the configuration file, unless another one is given. -/
def defaultConfig : Path :=
  ⟨"folio.toml"⟩

/-! ## Exports -/

/-- The format of an export.  A PDF file cannot be limited to some pages. -/
def ExportKind.format? (pages : Option PageRange) (ppi : Nat) :
    ExportKind → Option ExportFormat
  | .pdf => if pages.isSome then none else some .pdf
  | .svg => some (.svg pages)
  | .png => some (.png pages ppi)

/-- The path of an export: the document with the extension of the format, unless
    another one is asked for. -/
def exportTarget (main : Path) (format : ExportFormat) (output : Option Path) : Path :=
  output.getD (main.setExtension format.name)

end LivePreview.CommandLine
