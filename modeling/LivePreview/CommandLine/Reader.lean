import LivePreview.CommandLine.Draft

/-!
# Reading a command line

The words of a command line are read one by one.  An option that takes a value may
have it attached, or else in the next word; a value is only looked at when the next
option or document comes, or at the end, so the fault reported is not always the
first one.  After two dashes every word is a document.

```text
[options] command [options] document [options]
```

An option that is understood everywhere may stand on both sides of the command; the
one after it counts.
-/

namespace LivePreview.CommandLine

/-! ## Words -/

/-- A word by its dashes. -/
inductive Word where
  /-- Two dashes alone. -/
  | stop
  /-- An option by its name, with the value after the first equals sign. -/
  | long (name : String) (value : Option String)
  /-- Options by their letters, perhaps with a value after them. -/
  | letters (cs : List Char)
  | plain
  deriving DecidableEq, Repr

def Word.of (word : String) : Word :=
  match word.toList with
  | ['-', '-'] => .stop
  | '-' :: '-' :: cs =>
    match Text.splitOnce? '=' cs with
    | some (name, value) => .long (String.ofList name) (some (String.ofList value))
    | none => .long (String.ofList cs) none
  | ['-'] => .plain
  | '-' :: cs => .letters cs
  | _ => .plain

/-! ## One part of the command line -/

/-- A word that was read but not looked at. -/
inductive Pending where
  /-- An option whose value is the next word. -/
  | awaiting (name : OptionName)
  | option (name : OptionName) (value : String)
  | document (value : String)
  deriving DecidableEq, Repr

/-- What was read of a part of the command line. -/
structure Reading where
  draft : Draft
  pending : Option Pending
  /-- Whether the document was read. -/
  hasDocument : Bool
  /-- Whether two dashes were read. -/
  stopped : Bool
  deriving DecidableEq, Repr

namespace Reading

def start : Reading :=
  ⟨.empty, none, false, false⟩

def settle (r : Reading) : Except Rejection Draft :=
  match r.pending with
  | none => .ok r.draft
  | some (.awaiting _) => .error .badValue
  | some (.option name value) => r.draft.set name value
  | some (.document value) => r.draft.setFile value

def settled (r : Reading) (draft : Draft) : Reading :=
  { r with draft, pending := none }

def awaited? (r : Reading) : Option OptionName :=
  match r.pending with
  | some (.awaiting name) => if r.stopped then none else some name
  | _ => none

def attach (r : Reading) (name : OptionName) (value : String) : Except Rejection Reading := do
  pure (r.settled (← (← r.settle).set name value))

def await (r : Reading) (name : OptionName) : Except Rejection Reading := do
  pure { r with draft := ← r.settle, pending := some (.awaiting name) }

def raise (r : Reading) (name : OptionName) : Except Rejection Reading := do
  pure (r.settled (← (← r.settle).raise name))

def readLong (r : Reading) (scope : Scope) (name : String) (value : Option String) :
    Except Rejection Reading :=
  match scope.long? name, value with
  | none, _ => .error .unknownOption
  | some o, some value => if o.takesValue then r.attach o value else .error .needlessValue
  | some o, none => if o.takesValue then r.await o else r.raise o

/-- Options by their letters.  What follows the letter of an option that takes a value
    is the value, with or without an equals sign. -/
def readLetters (r : Reading) (scope : Scope) : List Char → Except Rejection Reading
  | [] => .ok r
  | c :: cs =>
    match scope.letter? c with
    | none => .error .unknownOption
    | some o =>
      if o.takesValue then
        match cs with
        | [] => r.await o
        | '=' :: value => r.attach o (String.ofList value)
        | value => r.attach o (String.ofList value)
      else
        match r.raise o with
        | .error e => .error e
        | .ok r => r.readLetters scope cs

/-- The document.  There is only one. -/
def readDocument (r : Reading) (word : String) : Except Rejection Reading := do
  if r.hasDocument then throw .unknownOption
  pure { r with draft := ← r.settle, pending := some (.document word), hasDocument := true }

/-- A word that begins with dashes or is the value of an option; answers nothing for
    any other word. -/
def readOption? (r : Reading) (scope : Scope) (word : String) :
    Option (Except Rejection Reading) :=
  if r.stopped then none
  else
    match Word.of word with
    | .stop => some (.ok { r with stopped := true })
    | .long name value => some (r.readLong scope name value)
    | .letters cs => some (r.readLetters scope cs)
    | .plain => r.awaited?.map fun name => .ok { r with pending := some (.option name word) }

end Reading

/-! ## After the command -/

def readAfter (verb : Verb) (r : Reading) : List String → Except Rejection Draft
  | [] => do
    let d ← r.settle
    if d.file.isNone then throw .missingFile
    pure d
  | word :: words =>
    match (r.readOption? (.after verb) word).getD (r.readDocument word) with
    | .error e => .error e
    | .ok r => readAfter verb r words

def readHelp : List String → Rejection
  | [] => .help
  | [word] => if word = helpWord ∨ (Verb.ofWord? word).isSome then .help else .unknownCommand
  | _ => .unknownCommand

/-! ## The whole command line -/

def Verb.command (d : Draft) : Verb → Command
  | .preview => .preview (d.report.getD .text)
  | .watch => .watch d.debounce
  | .export => .export (d.kind.getD .pdf) d.pages d.output

/-- What is asked for by the options before and after the command. -/
def invocation (top d : Draft) (verb : Verb) (file : Path) : Invocation where
  colour := (d.colour.orElse fun _ => top.colour).getD .auto
  verbose := d.verbose || top.verbose
  config := (d.config.orElse fun _ => top.config).getD defaultConfig
  document := ⟨file, d.root, d.cursor, d.typst, d.ppi, d.timeout⟩
  command := verb.command d

/-- Reads a command line from a word before the command on. -/
def readTop (r : Reading) : List String → Except Rejection Invocation
  | [] => do
    let d ← r.settle
    throw (if d.isEmpty then .nothingAsked else .missingCommand)
  | word :: words =>
    match r.readOption? .top word with
    | some (.error e) => .error e
    | some (.ok r) => readTop r words
    | none =>
      match Verb.ofWord? word with
      | some verb => do
        if r.stopped then throw .unknownOption
        let d ← readAfter verb .start words
        let top ← r.settle
        match d.file with
        | some file => pure (invocation top d verb file)
        | none => throw .missingFile
      | none =>
        if word = helpWord then .error (if r.stopped then .unknownOption else readHelp words)
        else .error .unknownCommand

def read (words : List String) : Except Rejection Invocation :=
  readTop .start words

end LivePreview.CommandLine
