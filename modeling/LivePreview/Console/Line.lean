import LivePreview.Text.Basic

/-!
# Terminal output

Output is a list of terminal commands: text, in which a line feed moves to the
start of the next line, and the few movements that the program uses.  `render`
gives the bytes, and `LogLine.commands` the commands of one log line.
-/

namespace LivePreview.Console

/-- A terminal command. -/
inductive Command where
  /-- Print text, line feeds included. -/
  | text (s : String)
  /-- Clear from the cursor to the end of its line. -/
  | clearLine
  /-- Move the cursor up. -/
  | up (lines : Nat)
  /-- Clear from the cursor to the end of the screen. -/
  | clearDown
  deriving DecidableEq, Repr

def Command.render : Command → String
  | .text s => s
  | .clearLine => "\x1b[K"
  | .up lines => s!"\x1b[{lines}A"
  | .clearDown => "\x1b[J"

def render (commands : List Command) : String :=
  String.join (commands.map Command.render)

/-! ## Colours -/

def coloured (code : Nat) (s : String) : String :=
  s!"\x1b[{code}m{s}\x1b[39m"

def green (s : String) : String :=
  coloured 32 s

def bold (s : String) : String :=
  s!"\x1b[1m{s}\x1b[0m"

def dimmed (s : String) : String :=
  s!"\x1b[2m{s}\x1b[0m"

/-! ## Log lines -/

/-- A line about what the program does. -/
structure LogLine where
  /-- Whether the line is printed only when details are asked for. -/
  detail : Bool
  topic : String
  message : String
  deriving DecidableEq, Repr, Inhabited

def LogLine.log (topic message : String) : LogLine :=
  ⟨false, topic, message⟩

/-- A line that is printed only when details are asked for. -/
def LogLine.debug (topic message : String) : LogLine :=
  ⟨true, topic, message⟩

def topicColour (topic : String) : Nat :=
  let lower := Text.lowered topic
  if lower = "preview" ∨ lower = "render" then 94
  else if lower = "watch" ∨ lower = "session" then 92
  else if lower = "error" then 91
  else if lower = "warning" then 95
  else 93

def LogLine.commands (line : LogLine) : List Command :=
  [.clearLine,
    .text (bold (coloured (topicColour line.topic) s!"[{line.topic}]") ++ " " ++ line.message ++
      "\n")]

def logCommands (verbose : Bool) (lines : List LogLine) : List Command :=
  (lines.filter fun line => verbose || !line.detail).flatMap LogLine.commands

end LivePreview.Console
