import LivePreview.Host.Program
import LivePreview.Simulation.StandIn

/-!
# A simulated machine

A `Machine` answers the requests of a program from a simulated disk, on which at
most one program can be run: the stand-in compiler.  It keeps what was printed and
which runs were made.
-/

namespace LivePreview.Simulation

/-- A simulated machine. -/
structure Machine where
  disk : Disk
  /-- Where programs are looked for by name. -/
  programs : List Path
  /-- The place of the stand-in compiler. -/
  compilerPlace : Place
  standIn : Option StandIn
  /-- The arguments of the runs made, oldest first. -/
  runs : List (List String)
  printed : String
  complained : String
  /-- The time of day. -/
  time : String

namespace Machine

/-- A machine with a disk, before anything happened on it. -/
def start (disk : Disk) (programs : List Path) (compilerPlace : Place) : Machine :=
  ⟨disk, programs, compilerPlace, none, [], "", "", "TIME"⟩

def install (s : Machine) (standIn : StandIn) : Machine :=
  { s with
    disk := (s.disk.put s.compilerPlace.dropLast .directory).put s.compilerPlace
      (.file ByteArray.empty true)
    standIn := some standIn
    runs := [] }

/-- The files a program name may stand for: itself if it has a slash, or else the
    files of that name where programs are looked for. -/
def candidates (s : Machine) (program : Path) : List Path :=
  if '/' ∈ program.text.toList then [program]
  else s.programs.map fun dir => dir.join program

def checkProgram (d : Disk) (path : Path) : Except SystemError Place :=
  match d.lookup path with
  | .error e => .error e
  | .ok (place, .file _ true) => .ok place
  | .ok _ => .error .permissionDenied

/-- The file that is run, with its place.  A file that may not be run counts only if
    there is no other. -/
def locate (d : Disk) : List Path → Except SystemError (Path × Place)
  | [] => .error .notFound
  | [path] => (checkProgram d path).map fun place => (path, place)
  | path :: rest =>
    match checkProgram d path with
    | .ok place => .ok (path, place)
    | .error e =>
      match locate d rest with
      | .ok found => .ok found
      | .error later => .error (if e = .permissionDenied then e else later)

/-- Starts a run of the stand-in compiler: what it said, and the machine after it. -/
def beginRun (s : Machine) (program : Path) (arguments : List String) :
    Except SystemError (StandIn × ByteArray × Machine) :=
  match locate s.disk (s.candidates program) with
  | .error e => .error e
  | .ok (file, place) =>
    match s.standIn with
    | some standIn =>
      if place = s.compilerPlace then
        let (words, disk) := standIn.begin file arguments s.disk
        .ok (standIn, words, { s with disk, runs := s.runs ++ [arguments] })
      else .error .notFound
    | none => .error .notFound

def concludeRun (s : Machine) (standIn : StandIn) (words : ByteArray)
    (arguments : List String) : Host.Run × Machine :=
  (⟨standIn.status, words⟩, { s with disk := standIn.conclude arguments s.disk })

def change (s : Machine) (disk : Except SystemError Disk) : Except SystemError Unit × Machine :=
  match disk with
  | .ok disk => (.ok (), { s with disk })
  | .error e => (.error e, s)

def inspect (d : Disk) (path : Path) : Except SystemError Host.EntryKind :=
  (d.lookup path).map fun entry =>
    match entry.2 with
    | .directory => .directory
    | .file _ _ => .file

def answer (s : Machine) : (request : Host.Request) → request.Reply × Machine
  | .read path => (s.disk.readBytes path, s)
  | .write path data => s.change (s.disk.write path data)
  | .makeDirectories path => s.change (s.disk.makeDirectories path)
  | .removeTree path => s.change (s.disk.removeTree path)
  | .list path => (s.disk.list path, s)
  | .inspect path => (inspect s.disk path, s)
  | .canonical path => (s.disk.canonical path, s)
  | .isProgram path => ((checkProgram s.disk path).isOk, s)
  | .run program arguments =>
    match s.beginRun program arguments with
    | .error e => (.error e, s)
    | .ok (standIn, words, s) =>
      let (run, s) := s.concludeRun standIn words arguments
      (.ok run, s)
  | .print text => ((), { s with printed := s.printed ++ text })
  | .complain text => ((), { s with complained := s.complained ++ text })
  | .time => (s.time, s)

def perform {α : Type} (s : Machine) (program : Host.Program α) : α × Machine :=
  (program.run (m := StateM Machine) fun request s => s.answer request).run s

end Machine

end LivePreview.Simulation
