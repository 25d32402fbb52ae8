import LivePreview.Disk.Basic
import LivePreview.Host.Request

/-!
# A stand-in compiler

The stand-in is a compiler program that does what it was told to: it writes given
pages, says given words, and ends in a given way.  The pages go where the output
argument points, with the label of a page put for the page placeholder.  `begin`
is the run up to the last page, and `conclude` the rest of it.
-/

namespace LivePreview.Simulation

/-- What a stand-in compiler does. -/
structure StandIn where
  /-- What it writes to its error output. -/
  complaints : ByteArray
  /-- The pages with their labels, in the order of the labels. -/
  pages : List (String × ByteArray)
  /-- Whether it removes the output directory in the end. -/
  wipes : Bool
  status : Host.ExitStatus

namespace StandIn

/-- A text with the first occurrence of a piece replaced, if there is one. -/
def replaceFirst? (piece replacement : String) (text : String) : Option String :=
  (Text.before? piece.toList text.toList).bind fun start =>
    if Text.occursIn piece.toList text.toList then
      some (String.ofList (start ++ replacement.toList ++
        text.toList.drop (start.length + piece.toList.length)))
    else none

def targetOf (output label : String) : String :=
  ((replaceFirst? "\x7b0p\x7d" label output).orElse fun _ =>
    replaceFirst? "\x7bp\x7d" label output).getD output

/-- The words about a file that could not be written. -/
def refusal (program : Path) (target : String) (e : SystemError) : String :=
  let reason :=
    match e with
    | .isDirectory => "Is a directory"
    | .permissionDenied => "Permission denied"
    | _ => "Directory nonexistent"
  s!"{program.text}: 14: cannot create {target}: {reason}\n"

/-- Writes the pages: the words said meanwhile, and the disk after it. -/
def writePages (program : Path) (output : String) (d : Disk) :
    List (String × ByteArray) → String × Disk
  | [] => ("", d)
  | (label, data) :: pages =>
    let target := targetOf output label
    match d.write ⟨target⟩ data with
    | .ok d => writePages program output d pages
    | .error e =>
      let (words, d) := writePages program output d pages
      (refusal program target e ++ words, d)

/-- The run up to the last page: what was said, and the disk after it. -/
def begin (s : StandIn) (program : Path) (arguments : List String) (d : Disk) :
    ByteArray × Disk :=
  let (words, d) := writePages program (arguments.getLast?.getD "") d s.pages
  (s.complaints ++ words.toUTF8, d)

/-- The directory part of a text, or all of it if there is no slash. -/
def directoryOf (output : String) : String :=
  match output.toList.reverse.dropWhile (· ≠ '/') with
  | [] => output
  | _ :: back => String.ofList back.reverse

/-- The rest of the run: the disk after it. -/
def conclude (s : StandIn) (arguments : List String) (d : Disk) : Disk :=
  if s.wipes then
    let path : Path := ⟨directoryOf (arguments.getLast?.getD "")⟩
    ((d.removeTree path).toOption.orElse fun _ => (d.removeFile path).toOption).getD d
  else d

end StandIn

end LivePreview.Simulation
