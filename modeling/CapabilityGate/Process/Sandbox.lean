import CapabilityGate.Config.Basic
import CapabilityGate.Files.Tree
import CapabilityGate.Output.Stream
import CapabilityGate.Report.Fault

/-!
# The sandbox

A program runs in a directory, with an environment that holds nothing but a search path and that
directory as its home, and under a deadline. What it writes is collected in chunks.

## Main definitions

* `Sandbox.start`: the program that a path leads to, or why it cannot be started.
* `Sandbox.outcome`: the outcome that the ending of a program stands for.
* `Sandbox.execute`: runs a program.
-/

namespace CapabilityGate

/-- What running a program comes to. -/
structure Execution where
  /-- Its outcome. -/
  outcome : Outcome
  /-- The chunks of what it wrote. -/
  chunks : List String
  deriving Repr, DecidableEq

namespace Sandbox

/-- Where a program finds other programs. -/
def searchPath : String := "/usr/bin:/bin:/usr/sbin:/sbin"

/-- Why a name without a slash cannot be started: no such program is installed, and a name made of
dots leads to a directory. -/
def searchError (name : String) : OsError :=
  if name == "." || name == ".." then .denied
  else if Files.maxName < name.utf8ByteSize then .nameTooLong
  else .notFound

/-- The files as they are seen from a directory. -/
def enter (f : Files) (directory : String) : Except OsError Files := do
  match ← f.stat directory with
  | (place, .directory _) => return { f with here := place }
  | _ => throw .notDirectory

/-- The program that a path leads to, when it is **started** in the directory `f.here`. -/
def start (f : Files) (path : String) : Except OsError Script :=
  if !path.toList.contains '/' then .error (searchError path)
  else
    match f.stat path with
    | .ok (_, .executable (.program script)) => .ok script
    | .ok _ => .error .denied
    | .error e => .error e

/-- What a program that runs in the directory `f.here` sees. -/
def surroundings (f : Files) (home : String) (arguments : List String) : Surroundings :=
  ⟨searchPath, home, Files.absolute f.here, f.namesIn f.here, arguments⟩

/-- The number that is added to a signal to make an exit code. -/
def signalBase : Nat := 128

/-- The **outcome** that the ending of a program stands for. -/
def outcome : Ending → Outcome
  | .exit code => .completed (Ending.lowByte code)
  | .signal n => .completed (signalBase + n : Nat)
  | .never => .timedOut

/-- Runs a program with the surroundings `s`. -/
def perform (limits : Limits) (s : Surroundings) (script : Script) : Execution :=
  ⟨outcome (script.endingUnder limits.fileSize),
    Stream.chunks (script.written s) ++ Stream.chunks script.stderr⟩

/-- **Runs** the program at a path in a directory. -/
def execute (limits : Limits) (f : Files) (path : String) (arguments : List String)
    (directory : String) : Except Fault Execution :=
  Except.mapError .programStart <|
    if (path :: directory :: arguments).any (·.toList.contains '\x00') then .error .nullInArgument
    else do
      let inside ← enter f directory
      let script ← start inside path
      return perform limits (surroundings inside directory arguments) script

end Sandbox

end CapabilityGate
