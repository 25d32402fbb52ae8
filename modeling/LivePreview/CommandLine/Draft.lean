import LivePreview.CommandLine.OptionName

/-!
# What was given

A `Draft` holds the values of the options read so far.  `Draft.set` is the only way
to add one: it refuses an option that was given before, and a value that the option
does not understand.
-/

namespace LivePreview.CommandLine

/-- Why a command line is not carried out. -/
inductive Rejection where
  /-- Help was asked for. -/
  | help
  | version
  /-- Nothing at all was asked for. -/
  | nothingAsked
  | missingCommand
  | unknownCommand
  | missingFile
  | unknownOption
  /-- An option was given twice. -/
  | repeated
  /-- A value is missing, empty, or none of those that can be chosen. -/
  | badValue
  /-- A value is not written as it should be. -/
  | malformedValue
  /-- A value was given to an option that takes none. -/
  | needlessValue
  deriving DecidableEq, Repr, Inhabited

/-- The values given so far. -/
structure Draft where
  verbose : Bool
  file : Option Path
  colour : Option ColourChoice
  config : Option Path
  root : Option Path
  cursor : Option Nat
  typst : Option String
  ppi : Option Nat
  timeout : Option Nat
  report : Option ReportFormat
  debounce : Option Nat
  kind : Option ExportKind
  pages : Option PageRange
  output : Option Path
  deriving DecidableEq, Repr

def Draft.empty : Draft where
  verbose := false
  file := none
  colour := none
  config := none
  root := none
  cursor := none
  typst := none
  ppi := none
  timeout := none
  report := none
  debounce := none
  kind := none
  pages := none
  output := none

/-! ## Values -/

def pathValue (value : String) : Except Rejection Path :=
  if value.isEmpty then .error .badValue else .ok ⟨value⟩

def wordValue (value : String) : Except Rejection Nat :=
  match Text.word? value.toList with
  | some n => .ok n
  | none => .error .malformedValue

/-- A number of at most 32 bits.  It may have a sign of either kind, so a zero may be
    negative. -/
def halfWordValue (value : String) : Except Rejection Nat :=
  match value.toList with
  | '-' :: digits =>
    if !digits.isEmpty ∧ Text.digitsValue? 0 digits = some 0 then .ok 0 else .error .malformedValue
  | cs =>
    match Text.unsigned? Text.halfWordLimit cs with
    | some n => .ok n
    | none => .error .malformedValue

def pagesValue (value : String) : Except Rejection PageRange :=
  match PageRange.read value with
  | .ok r => .ok r
  | .error _ => .error .malformedValue

def choice {α : Type} (choices : List (String × α)) (value : String) : Except Rejection α :=
  match choices.lookup value with
  | some a => .ok a
  | none => .error .badValue

def colourChoices : List (String × ColourChoice) :=
  [("auto", .auto), ("always", .always), ("never", .never)]

def reportChoices : List (String × ReportFormat) :=
  [("text", .text), ("json", .json)]

def kindChoices : List (String × ExportKind) :=
  [("pdf", .pdf), ("svg", .svg), ("png", .png)]

namespace Draft

/-! ## Adding -/

def has (d : Draft) : OptionName → Bool
  | .help => false
  | .version => false
  | .colour => d.colour.isSome
  | .verbose => d.verbose
  | .config => d.config.isSome
  | .root => d.root.isSome
  | .cursor => d.cursor.isSome
  | .typst => d.typst.isSome
  | .ppi => d.ppi.isSome
  | .timeout => d.timeout.isSome
  | .report => d.report.isSome
  | .debounce => d.debounce.isSome
  | .kind => d.kind.isSome
  | .pages => d.pages.isSome
  | .output => d.output.isSome

def isEmpty (d : Draft) : Bool :=
  !Scope.top.options.any d.has

def set (d : Draft) (name : OptionName) (value : String) : Except Rejection Draft := do
  if d.has name then throw .repeated
  match name with
  | .help => throw .needlessValue
  | .version => throw .needlessValue
  | .verbose => throw .needlessValue
  | .colour => pure { d with colour := some (← choice colourChoices value) }
  | .config => pure { d with config := some (← pathValue value) }
  | .root => pure { d with root := some (← pathValue value) }
  | .cursor => pure { d with cursor := some (← wordValue value) }
  | .typst => pure { d with typst := some value }
  | .ppi => pure { d with ppi := some (← halfWordValue value) }
  | .timeout => pure { d with timeout := some (← wordValue value) }
  | .report => pure { d with report := some (← choice reportChoices value) }
  | .debounce => pure { d with debounce := some (← wordValue value) }
  | .kind => pure { d with kind := some (← choice kindChoices value) }
  | .pages => pure { d with pages := some (← pagesValue value) }
  | .output => pure { d with output := some (← pathValue value) }

/-- Adds an option without a value.  To ask for help or the version ends the reading. -/
def raise (d : Draft) (name : OptionName) : Except Rejection Draft :=
  match name with
  | .help => .error .help
  | .version => .error .version
  | name => if d.has name then .error .repeated else .ok { d with verbose := true }

def setFile (d : Draft) (value : String) : Except Rejection Draft := do
  pure { d with file := some (← pathValue value) }

end Draft

end LivePreview.CommandLine
