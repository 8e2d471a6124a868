import CapabilityGate.Audit.Verdict
import CapabilityGate.Program.Parse

/-!
# Audit reports

What an audit finds in a program text that is not compiled.

## Main definitions

* `AuditReport`: the call sites and external crates of a program, and the verdict on it.
* `AuditReport.ofSource`: the report on a program text.
-/

namespace CapabilityGate

open Program

/-- What an audit finds in a program. -/
structure AuditReport where
  /-- The call sites in order. -/
  sites : List CallSite
  /-- The external crates that the program refers to, ordered by name. -/
  namespaces : List String
  /-- The verdict. -/
  verdict : Verdict

namespace AuditReport

/-- The report on a parsed program under a denylist. -/
def ofProgram (p : SourceFile) (denylist : List Descriptor) : AuditReport :=
  let model := Model.ofProgram p
  ⟨model.sites, model.namespaces, model.verdict (withoutRepeats denylist)⟩

/-- The **report** on a program text, whose denylist is the configured one followed by one of
its own; or why the text is no program. -/
def ofSource (configured own : List Descriptor) (source : String) :
    Except SyntaxError AuditReport :=
  (SourceFile.parse source).map fun p => ofProgram p (configured ++ own)

end AuditReport

end CapabilityGate
