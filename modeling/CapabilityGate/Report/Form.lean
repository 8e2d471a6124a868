import CapabilityGate.Form.Read
import CapabilityGate.Form.Write

/-!
# Reading reports

Readers for the structured values of call sites, diagnostics, outcomes, verdicts and reports.

## Main definitions

* `CallSite.ofForm`, `Diagnostic.ofForm`, `Outcome.ofForm`, `Verdict.ofForm`, `RunReport.ofForm`.
-/

namespace CapabilityGate

open Form

/-- Reads the word for a kind of call site. -/
def CallKind.ofForm : Reads CallKind :=
  oneOf ([CallKind.path, .method, .reference, .macroBody].map fun k => (k.word, k))

/-- Reads the word for a severity. -/
def Severity.ofForm : Reads Severity :=
  oneOf ([Severity.error, .warning, .note, .help].map fun s => (s.word, s))

/-- Reads the word for a phase. -/
def Phase.ofForm : Reads Phase :=
  oneOf (Phase.all.map fun p => (p.word, p))

/-- Reads a call site. -/
def CallSite.ofForm : Reads CallSite := fun d => do
  let f ← record true [field "container" typeText, field "method" Form.text,
    field "kind" CallKind.ofForm, field "line" (natural 64), field "column" (natural 64)] d
  return ⟨← need f "container" typeText, ← need f "method" Form.text,
    ← need f "kind" CallKind.ofForm, ← need f "line" (natural 64), ← need f "column" (natural 64)⟩

/-- Reads a diagnostic. -/
def Diagnostic.ofForm : Reads Diagnostic := fun d => do
  let f ← record true [field "severity" Severity.ofForm, field "message" Form.text,
    field "code" (maybe Form.text), field "line" (maybe (natural 64)),
    field "column" (maybe (natural 64)), field "rendered" (maybe Form.text)] d
  return ⟨← need f "severity" Severity.ofForm, ← need f "message" Form.text,
    ← optional f "code" Form.text, ← optional f "line" (natural 64),
    ← optional f "column" (natural 64), ← optional f "rendered" Form.text⟩

/-- Reads the only field of a record. -/
def onlyField {α : Type} (name : String) (r : Reads α) : Reads α := fun d => do
  let f ← record true [field name r] d
  need f name r

/-- The kinds of outcomes, each with the reader of what it carries. -/
def Outcome.kinds : List (String × Reads Outcome) :=
  [("not_run", fun d => (nothing d).map fun _ => .notRun),
   ("policy_violation", fun d => (onlyField "call_site" CallSite.ofForm d).map .policyViolation),
   ("compile_failed",
    fun d => (onlyField "diagnostics" (listOf Diagnostic.ofForm) d).map .compileFailed),
   ("completed",
    fun d => (onlyField "exit_code" (between (-2147483648) 2147483648) d).map .completed),
   ("timed_out", fun d => (nothing d).map fun _ => .timedOut)]

/-- Reads an outcome. -/
def Outcome.ofForm : Reads Outcome := fun d => do
  let (r, rest) ← tagged "status" Outcome.kinds d
  r rest

/-- The kinds of verdicts, each with the reader of what it carries. -/
def Verdict.kinds : List (String × Reads Verdict) :=
  [("passed", fun d => (onlyField "scanned" (natural 64) d).map .passed),
   ("violation", fun d => do
    let f ← record true [field "call_site" CallSite.ofForm, field "descriptor" descriptorText] d
    return .violation (← need f "call_site" CallSite.ofForm)
      (← need f "descriptor" descriptorText)),
   ("unresolved", fun d => (onlyField "call_site" CallSite.ofForm d).map .unresolved)]

/-- Reads a verdict. -/
def Verdict.ofForm : Reads Verdict := fun d => do
  let (r, rest) ← tagged "verdict" Verdict.kinds d
  r rest

/-- Reads the identifier of a run. -/
def RunId.ofForm : Reads RunId
  | .text s => (RunId.parse? s).elim (.error .mismatch) .ok
  | _ => .error .mismatch

/-- Reads the report of a run. -/
def RunReport.ofForm : Reads RunReport := fun d => do
  let f ← record true [field "session_id" RunId.ofForm, field "result" Outcome.ofForm,
    field "output" Form.text, field "chunks" (listOf Form.text),
    field "workspace" (maybe Form.text), field "elapsed_ms" (natural 64)] d
  return ⟨← need f "session_id" RunId.ofForm, ← need f "result" Outcome.ofForm,
    ← need f "output" Form.text, ← need f "chunks" (listOf Form.text),
    ← optional f "workspace" Form.text, ← need f "elapsed_ms" (natural 64)⟩

end CapabilityGate
