import LivePreview.Failure
import LivePreview.Text.Utf8

/-!
# Requests to the system

A `Request` is one thing that the program asks of the system it runs on: an access
to the file system, a run of another program, or some output.  `Request.Reply` is
the type of the answer.  Nothing else leaves the program or comes in.
-/

namespace LivePreview.Host

/-- How a program ended. -/
inductive ExitStatus where
  | exited (code : Nat)
  /-- By a signal. -/
  | killed (signal : Nat)
  deriving DecidableEq, Repr, Inhabited

namespace ExitStatus

def signalNames : List (Nat × String) :=
  [(1, "SIGHUP"), (2, "SIGINT"), (3, "SIGQUIT"), (4, "SIGILL"), (5, "SIGTRAP"), (6, "SIGABRT"),
    (7, "SIGBUS"), (8, "SIGFPE"), (9, "SIGKILL"), (10, "SIGUSR1"), (11, "SIGSEGV"),
    (12, "SIGUSR2"), (13, "SIGPIPE"), (14, "SIGALRM"), (15, "SIGTERM"), (16, "SIGSTKFLT"),
    (17, "SIGCHLD"), (18, "SIGCONT"), (19, "SIGSTOP"), (20, "SIGTSTP"), (21, "SIGTTIN"),
    (22, "SIGTTOU"), (23, "SIGURG"), (24, "SIGXCPU"), (25, "SIGXFSZ"), (26, "SIGVTALRM"),
    (27, "SIGPROF"), (28, "SIGWINCH"), (29, "SIGIO"), (30, "SIGPWR"), (31, "SIGSYS")]

def describe : ExitStatus → String
  | .exited code => s!"exit status: {code}"
  | .killed signal =>
    match signalNames.lookup signal with
    | some name => s!"signal: {signal} ({name})"
    | none => s!"signal: {signal}"

def isSuccess (status : ExitStatus) : Bool :=
  status == .exited 0

end ExitStatus

/-- A program that was run to its end. -/
structure Run where
  status : ExitStatus
  /-- What it wrote to its error output. -/
  complaints : ByteArray
  deriving DecidableEq

/-- What a path names. -/
inductive EntryKind where
  | directory
  | file
  deriving DecidableEq, Repr, Inhabited

/-- Something to ask of the system. -/
inductive Request where
  | read (path : Path)
  | write (path : Path) (data : ByteArray)
  /-- A directory, and those above it as needed. -/
  | makeDirectories (path : Path)
  /-- A directory with everything in it. -/
  | removeTree (path : Path)
  /-- The names in a directory, in any order. -/
  | list (path : Path)
  | inspect (path : Path)
  /-- The absolute path without dots. -/
  | canonical (path : Path)
  /-- Whether a path names a file that may be run. -/
  | isProgram (path : Path)
  /-- Run a program and wait for its end. -/
  | run (program : Path) (arguments : List String)
  | print (text : String)
  /-- Print to the error output. -/
  | complain (text : String)
  /-- The time of day, as shown to the user. -/
  | time
  deriving DecidableEq

abbrev Request.Reply : Request → Type
  | .read _ => Except SystemError ByteArray
  | .write _ _ => Except SystemError Unit
  | .makeDirectories _ => Except SystemError Unit
  | .removeTree _ => Except SystemError Unit
  | .list _ => Except SystemError (List String)
  | .inspect _ => Except SystemError EntryKind
  | .canonical _ => Except SystemError Path
  | .isProgram _ => Bool
  | .run _ _ => Except SystemError Run
  | .print _ => Unit
  | .complain _ => Unit
  | .time => String

/-- What the program knows of its surroundings from the start. -/
structure Environment where
  /-- The current directory. -/
  current : Path
  /-- The user's directory, if there is one. -/
  home : Option String
  /-- Where temporary files go. -/
  temporary : Path
  /-- Where programs are looked for. -/
  programs : List Path
  /-- The number of this process. -/
  process : String
  deriving Repr

end LivePreview.Host
