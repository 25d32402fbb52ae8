import LivePreview.Console.Line

/-!
# The status block

While a document is watched, one block of lines at the end of the output shows
how the last compile ended.  Each message clears the block before it, which the
program finds again by the number of its lines.
-/

namespace LivePreview.Console

/-- The wall clock at a number of seconds since midnight of some day. -/
def clock (seconds : Nat) : String :=
  s!"{two (seconds / 3600 % 24)}:{two (seconds / 60 % 60)}:{two (seconds % 60)}"
where
  /-- A number with at least two digits. -/
  two (n : Nat) : String :=
    if n < 10 then s!"0{n}" else toString n

def lineCount (message : String) : Nat :=
  message.toList.count '\n' + 1

def joinDetail (summary detail : String) : String :=
  if detail.isEmpty then summary else summary ++ "\n" ++ detail

/-- What a status message says. -/
inductive Status where
  | success (message : String)
  | error (summary detail : String)
  | warning (message : String)
  deriving DecidableEq, Repr

namespace Status

def symbol : Status → String
  | .success _ => green "✓"
  | .error _ _ => coloured 31 "✗"
  | .warning _ => coloured 33 "⚠"

def message : Status → String
  | .success message => message
  | .error summary detail => joinDetail summary detail
  | .warning message => message

end Status

/-- What the program knows of the block on screen: its height. -/
structure StatusBlock where
  lines : Nat
  deriving DecidableEq, Repr, Inhabited

namespace StatusBlock

def none : StatusBlock :=
  ⟨0⟩

/-- The commands that replace the block by a message, and the new block.  The
    terminal takes a distance of 16 bits. -/
def display (block : StatusBlock) (time : String) (status : Status) :
    List Command × StatusBlock :=
  let clear := if 0 < block.lines then [.up (block.lines % (1 <<< 16)), .clearDown] else []
  let line := dimmed s!"[{time}]" ++ " " ++ status.symbol ++ " " ++ status.message ++ "\n"
  (clear ++ [.text line], ⟨lineCount status.message⟩)

end StatusBlock

end LivePreview.Console
