import CapabilityGate.Text.Utf8

/-!
# What programs and compilers do

A program is described by what it does when it runs: what it writes, what it shows of its
surroundings, and how it ends. A compiler is described in the same way.

## Main definitions

* `Ending`: how a process ends.
* `Script`, `CompilerScript`: what a program and a compiler do.
* `Surroundings`: what a process can see.
* `Script.written`: what a program writes.
* `Script.ending`: how it ends under a limit on the size of files.
-/

namespace CapabilityGate

/-- How a process ends. -/
inductive Ending where
  /-- By itself, with a code, of which the low eight bits count. -/
  | exit (code : Nat)
  /-- By a signal. -/
  | signal (number : Nat)
  /-- Not at all. -/
  | never
  deriving Repr, DecidableEq, Inhabited

namespace Ending

/-- The code that counts. -/
def lowByte (code : Nat) : Nat :=
  code % 256

/-- How the ending of a process is worded. -/
def text : Ending → String
  | exit code => "exit status: " ++ toString (lowByte code)
  | signal n => "signal: " ++ toString n ++ (names.lookup n).elim "" fun s => " (" ++ s ++ ")"
  | never => "still running"
where
  /-- The names of the signals. -/
  names : List (Nat × String) :=
    [(1, "SIGHUP"), (2, "SIGINT"), (3, "SIGQUIT"), (4, "SIGILL"), (5, "SIGTRAP"), (6, "SIGABRT"),
     (7, "SIGBUS"), (8, "SIGFPE"), (9, "SIGKILL"), (10, "SIGUSR1"), (11, "SIGSEGV"),
     (12, "SIGUSR2"), (13, "SIGPIPE"), (14, "SIGALRM"), (15, "SIGTERM"), (16, "SIGSTKFLT"),
     (17, "SIGCHLD"), (18, "SIGCONT"), (19, "SIGSTOP"), (20, "SIGTSTP"), (21, "SIGTTIN"),
     (22, "SIGTTOU"), (23, "SIGURG"), (24, "SIGXCPU"), (25, "SIGXFSZ"), (26, "SIGVTALRM"),
     (27, "SIGPROF"), (28, "SIGWINCH"), (29, "SIGIO"), (30, "SIGPWR"), (31, "SIGSYS")]

/-- Whether a process ended by itself with code zero. -/
def isSuccess : Ending → Bool
  | exit code => lowByte code == 0
  | _ => false

end Ending

/-- What a program does. -/
structure Script where
  /-- What it writes to its output. -/
  stdout : List UInt8
  /-- What it writes to its error output. -/
  stderr : List UInt8
  /-- Whether it shows its surroundings. -/
  showsSurroundings : Bool
  /-- Whether it shows its arguments. -/
  showsArguments : Bool
  /-- The size of the file that it writes, if it writes one; it ends then. -/
  writesFile : Option Nat
  /-- How it ends otherwise. -/
  ending : Ending
  deriving Repr, DecidableEq, Inhabited

/-- What a compiler does after it has read its input. -/
structure CompilerScript where
  /-- What it writes to its error output. -/
  stderr : List UInt8
  /-- The program that it makes, if it makes one. -/
  artifact : Option Script
  /-- How it ends. -/
  ending : Ending
  deriving Repr, DecidableEq, Inhabited

/-- What a process can see of its surroundings. -/
structure Surroundings where
  /-- Where programs are searched for. -/
  searchPath : String
  /-- The directory that it is told is its home. -/
  home : String
  /-- The directory that it runs in. -/
  directory : String
  /-- The names in that directory. -/
  names : List String
  /-- Its arguments. -/
  arguments : List String
  deriving Repr, DecidableEq

namespace Script

/-- The lines that show the surroundings. -/
def surroundings (s : Surroundings) : List String :=
  [s.searchPath, s.home, s.directory] ++ s.names ++ ["[]", "read 1"]

/-- The lines that a program shows. -/
def shown (p : Script) (s : Surroundings) : List String :=
  (if p.showsSurroundings then surroundings s else []) ++
    (if p.showsArguments then s.arguments.map fun a => "<" ++ a ++ ">" else [])

/-- What a program writes to its output. -/
def written (p : Script) (s : Surroundings) : List UInt8 :=
  p.stdout ++ Text.bytesOf (String.join ((p.shown s).map (· ++ "\n")))

/-- The signal that ends a process which makes a file too large. -/
def fileTooLarge : Nat := 25

/-- How a program ends when files may have at most `limit` bytes; zero stands for no limit. -/
def endingUnder (p : Script) (limit : Nat) : Ending :=
  match p.writesFile with
  | some size => if limit != 0 && limit < size then .signal fileTooLarge else .exit 0
  | none => p.ending

end Script

end CapabilityGate
