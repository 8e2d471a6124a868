import CapabilityGate.Capability.CallSite
import CapabilityGate.Report.Diagnostic

/-!
# Outcomes and phases of a run

A run goes through phases and ends with an outcome.

## Main definitions

* `Outcome`: how a run ended.
* `Outcome.text`: the line that is shown for it.
* `Outcome.exitStatus`: the exit status of a command that ran a program to this outcome.
* `Phase`: how far a run has come.
-/

namespace CapabilityGate

/-- How a run ended. -/
inductive Outcome where
  /-- It has not ended. -/
  | notRun
  /-- The call site is denied, so nothing was compiled. -/
  | policyViolation (site : CallSite)
  /-- The program was not compiled. -/
  | compileFailed (diagnostics : List Diagnostic)
  /-- The program ended by itself or by a signal. -/
  | completed (exitCode : Int)
  /-- The program was stopped at its deadline. -/
  | timedOut
  deriving Repr, DecidableEq, Inhabited

namespace Outcome

/-- The word for the kind of an outcome. -/
def word : Outcome → String
  | notRun => "not_run"
  | policyViolation _ => "policy_violation"
  | compileFailed _ => "compile_failed"
  | completed _ => "completed"
  | timedOut => "timed_out"

/-- Whether a run has ended. -/
def isTerminal : Outcome → Bool
  | notRun => false
  | _ => true

/-- Whether the program ended by itself with exit code zero. -/
def isSuccess : Outcome → Bool
  | completed code => code == 0
  | _ => false

/-- The line that is shown for an outcome. -/
def text : Outcome → String
  | notRun => "not run"
  | policyViolation site => "policy violation: " ++ site.text ++ " is blocked"
  | compileFailed diagnostics =>
    "compilation failed with " ++ toString diagnostics.length ++ " diagnostic(s)"
  | completed code => "completed with exit code " ++ toString code
  | timedOut => "timed out"

/-- The exit status for a program that a policy forbids. -/
def violationStatus : Nat := 77

/-- The exit status for a program that was not compiled. -/
def compileFailedStatus : Nat := 65

/-- The exit status for a program that was stopped at its deadline. -/
def timedOutStatus : Nat := 124

/-- The **exit status** for an outcome. Of an exit code the low eight bits count. -/
def exitStatus : Outcome → Nat
  | completed code => (code % 256).toNat
  | policyViolation _ => violationStatus
  | compileFailed _ => compileFailedStatus
  | timedOut => timedOutStatus
  | notRun => 1

end Outcome

/-- How far a run has come. -/
inductive Phase where
  /-- It waits. -/
  | pending
  /-- The program is parsed. -/
  | parsing
  /-- The program is checked against the denylist. -/
  | auditing
  /-- The program is compiled. -/
  | building
  /-- The program runs. -/
  | executing
  /-- The run is over. -/
  | finished
  deriving Repr, DecidableEq, Inhabited

namespace Phase

/-- All phases in order. -/
def all : List Phase := [pending, parsing, auditing, building, executing, finished]

/-- The place of a phase in their order. -/
def rank : Phase → Nat
  | pending => 0
  | parsing => 1
  | auditing => 2
  | building => 3
  | executing => 4
  | finished => 5

/-- Whether a phase is `other` or a later one. -/
def reaches (p other : Phase) : Bool :=
  other.rank ≤ p.rank

/-- The word for a phase. -/
def word : Phase → String
  | pending => "pending"
  | parsing => "parsing"
  | auditing => "auditing"
  | building => "building"
  | executing => "executing"
  | finished => "finished"

end Phase

end CapabilityGate
