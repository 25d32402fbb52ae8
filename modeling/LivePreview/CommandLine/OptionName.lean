import LivePreview.CommandLine.Command

/-!
# Options

The options of the command line by name.  Some are understood everywhere, the
others only after a certain command; a `Scope` is a part of the command line with
options of its own.
-/

namespace LivePreview.CommandLine

/-- An option. -/
inductive OptionName where
  | help
  | version
  | colour
  | verbose
  | config
  | root
  | cursor
  | typst
  | ppi
  | timeout
  /-- How a preview is reported. -/
  | report
  | debounce
  /-- What an export produces. -/
  | kind
  | pages
  | output
  deriving DecidableEq, Repr, Inhabited

namespace OptionName

def long : OptionName → String
  | .help => "help"
  | .version => "version"
  | .colour => "color"
  | .verbose => "verbose"
  | .config => "config"
  | .root => "root"
  | .cursor => "cursor"
  | .typst => "typst"
  | .ppi => "ppi"
  | .timeout => "timeout"
  | .report => "format"
  | .debounce => "debounce"
  | .kind => "format"
  | .pages => "pages"
  | .output => "output"

def letter : OptionName → Option Char
  | .help => some 'h'
  | .version => some 'V'
  | .verbose => some 'v'
  | .config => some 'C'
  | .root => some 'r'
  | .report => some 'f'
  | .kind => some 'f'
  | .output => some 'o'
  | _ => none

def takesValue : OptionName → Bool
  | .help => false
  | .version => false
  | .verbose => false
  | _ => true

end OptionName

/-- The commands without their options. -/
inductive Verb where
  | preview
  | watch
  | export
  deriving DecidableEq, Repr, Inhabited

/-- The command that a word stands for; a letter is enough. -/
def Verb.ofWord? (word : String) : Option Verb :=
  if word = "preview" ∨ word = "p" then some .preview
  else if word = "watch" ∨ word = "w" then some .watch
  else if word = "export" ∨ word = "e" then some .export
  else none

def helpWord : String :=
  "help"

/-- A part of the command line. -/
inductive Scope where
  /-- Before the command. -/
  | top
  /-- After a command. -/
  | after (verb : Verb)
  deriving DecidableEq, Repr, Inhabited

namespace Scope

def shared : List OptionName :=
  [.help, .colour, .verbose, .config]

def documentOptions : List OptionName :=
  [.root, .cursor, .typst, .ppi, .timeout]

def options : Scope → List OptionName
  | .top => .version :: shared
  | .after .preview => shared ++ documentOptions ++ [.report]
  | .after .watch => shared ++ documentOptions ++ [.debounce]
  | .after .export => shared ++ documentOptions ++ [.kind, .pages, .output]

def long? (scope : Scope) (name : String) : Option OptionName :=
  scope.options.find? fun o => o.long == name

def letter? (scope : Scope) (c : Char) : Option OptionName :=
  scope.options.find? fun o => o.letter == some c

end Scope

end LivePreview.CommandLine
