import LivePreview.Host.Program

/-!
# Where the configuration is

The configuration file is looked for in the current directory and in those above
it, nearest first.  A name that is an absolute path stands for itself.
-/

namespace LivePreview.Config

/-- A text with a leading tilde replaced by the user's directory, if it stands alone
    or before a slash. -/
def expandTilde (home : Option String) (text : String) : String :=
  match home, text.toList with
  | some home, ['~'] => home
  | some home, '~' :: '/' :: rest => home ++ String.ofList ('/' :: rest)
  | _, _ => text

/-- The paths a configuration name may stand for, in the order in which they are
    tried. -/
def candidates (start name : Path) : List Path :=
  if name.isAbsolute then [name] else start.ancestors.map fun dir => dir.join name

def locate (there : Path → Bool) (start name : Path) : Option Path :=
  (candidates start name).find? there

def search (start name : Path) : Host.Program (Option Path) :=
  Host.Program.find Host.Program.isThere (candidates start name)

end LivePreview.Config
