import CapabilityGate.Capability.Descriptor
import CapabilityGate.Audit.Verdict
import CapabilityGate.Output.Buffer
import CapabilityGate.Report.RunReport

/-!
# Sessions

A session is a program to be run once, with what is denied to it, and with what is known of its
run so far.

## Main definitions

* `Session`: a program and the state of its run.
* `Session.deny`: a session to which more is denied.
* `Session.claim?`: takes a session for a run, unless one has taken it.
* `Session.report`: the report of the run.
-/

namespace CapabilityGate

/-- A program to be run once, and the state of its run. -/
structure Session where
  /-- The identifier of the run. -/
  id : RunId
  /-- The program text. -/
  source : String
  /-- What is denied to the program, each descriptor once. -/
  denylist : List Descriptor
  /-- How far the run has come. -/
  phase : Phase
  /-- How the run ended, once it has. -/
  ended : Option Outcome
  /-- The directory of the run, once there is one. -/
  workspace : Option String
  /-- What the program has written. -/
  output : Buffer
  deriving Repr, DecidableEq

namespace Session

/-- A session that waits. -/
def ofSource (id : RunId) (source : String) : Session :=
  ⟨id, source, [], .pending, none, none, .empty⟩

/-- The session with more denied to it. -/
def deny (s : Session) (more : List Descriptor) : Session :=
  { s with denylist := withoutRepeats (s.denylist ++ more) }

/-- The outcome of a session: that it has not ended, until it has. -/
def outcome (s : Session) : Outcome :=
  s.ended.getD .notRun

/-- The session in another phase. -/
def enter (s : Session) (phase : Phase) : Session :=
  { s with phase }

/-- Takes a session that waits for a run. -/
def claim? (s : Session) : Option Session :=
  if s.phase = .pending then some (s.enter .parsing) else none

/-- The session with the directory of its run. The first one stays. -/
def place (s : Session) (path : String) : Session :=
  { s with workspace := some (s.workspace.getD path) }

/-- The session with an outcome. The first one stays. -/
def settle (s : Session) (outcome : Outcome) : Session :=
  { s with ended := some (s.ended.getD outcome) }

/-- The session after its program has written more. -/
def write (s : Session) (chunks : List String) : Session :=
  { s with output := s.output.appendAll chunks }

/-- The **report** of a run that took so many milliseconds. -/
def report (s : Session) (elapsedMs : Nat) : RunReport :=
  ⟨s.id, s.outcome, s.output.contents, s.output.chunks, s.workspace, elapsedMs⟩

end Session

end CapabilityGate
