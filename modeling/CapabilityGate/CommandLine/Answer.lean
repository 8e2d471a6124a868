import CapabilityGate.Audit.Report
import CapabilityGate.CommandLine.Arguments
import CapabilityGate.Config.Source
import CapabilityGate.Run.Service

/-!
# Answers of the command line

What the commands print, and the status that they end with. The output of a program goes to
standard output, and everything about it to standard error; a structured report goes to standard
output alone.

## Main definitions

* `Answer`: what a command prints, and its status.
* `Situation`: the files and the input that a command finds.
* `Situation.run`, `Situation.audit`: what the commands do.
* `Situation.invoke`: the answer to an invocation.
-/

namespace CapabilityGate

/-- What a command prints, and its status. -/
structure Answer where
  /-- The status. -/
  status : Nat
  /-- What it prints to standard output. -/
  stdout : String
  /-- What it prints to standard error. -/
  stderr : String
  deriving Repr, DecidableEq, Inhabited

/-- Why a command breaks off: what it was about to do, and what is wrong. -/
structure Breakdown where
  /-- What the command was about to do. -/
  context : String
  /-- What is wrong. -/
  cause : String
  deriving Repr, DecidableEq

namespace Answer

/-- Lines of text. -/
def unlines (lines : List String) : String :=
  String.join (lines.map (· ++ "\n"))

/-- A text with four spaces in front of each line. -/
def indent (s : String) : String :=
  "    " ++ String.ofList (s.toList.flatMap fun c => if c == '\n' then "\n    ".toList else [c])

/-- The answer of a command that breaks off. -/
def ofBreakdown (b : Breakdown) : Answer :=
  ⟨1, "", unlines ["Error: " ++ b.context, "", "Caused by:", indent b.cause]⟩

/-- How a kind of call site is printed. -/
def kindName : CallKind → String
  | .path => "Path"
  | .method => "Method"
  | .reference => "Reference"
  | .macroBody => "Macro"

/-- The line for a verdict. -/
def verdictLine : Verdict → String
  | .passed scanned => "passed (" ++ toString scanned ++ " call sites checked)"
  | .violation site d => "violation: " ++ site.text ++ " is denied by " ++ d.text
  | .unresolved site => "violation: " ++ site.text ++ " could not be resolved"

/-- The diagnostics of an outcome. -/
def diagnostics : Outcome → List Diagnostic
  | .compileFailed diagnostics => diagnostics
  | _ => []

/-- The answer for the report of a run. -/
def ofRunReport (json : Bool) (r : RunReport) : Answer :=
  let status := r.outcome.exitStatus
  if json then ⟨status, JsonText.indented r.form ++ "\n", ""⟩
  else ⟨status, r.output, unlines <| (diagnostics r.outcome).map Diagnostic.text ++
    [r.outcome.text ++ " (" ++ toString r.elapsedMs ++ " ms)"]⟩

/-- The answer for an audit report. -/
def ofAuditReport (json : Bool) (r : AuditReport) : Answer :=
  let status := if r.verdict.rejects then Outcome.violationStatus else 0
  if json then ⟨status, JsonText.indented r.form ++ "\n", ""⟩
  else ⟨status, unlines (r.sites.map fun site => kindName site.kind ++ "\t" ++ site.text),
    unlines [verdictLine r.verdict]⟩

/-- The answer for a text that is no program. -/
def ofSyntaxError (e : Program.SyntaxError) : Answer :=
  ⟨Outcome.compileFailedStatus, "", unlines [(Diagnostic.ofSyntaxError e).text]⟩

end Answer

/-- What a command finds when it starts. -/
structure Situation where
  /-- The files. -/
  files : Files
  /-- The input. -/
  stdin : List UInt8
  /-- The identifier for a run. -/
  id : RunId
  /-- How many milliseconds a run takes. -/
  elapsedMs : Nat

namespace Situation

/-- Puts what a command was about to do in front of why it cannot. -/
def orBreak {ε α : Type} (context : String) (message : ε → String) (r : Except ε α) :
    Except Breakdown α :=
  r.mapError fun e => ⟨context, message e⟩

/-- The settings in a file, or the default ones. -/
def config (t : Situation) : Option String → Except Breakdown Config
  | some path =>
    orBreak ("Failed to load config from " ++ path) Fault.message (Config.ofFile t.files path)
  | none => .ok {}

/-- The text of a program. A file named by a hyphen is the input. -/
def source (t : Situation) (file : String) : Except Breakdown String :=
  if FilePath.components file = [.name "-"] then
    match Text.decode? t.stdin with
    | some s => .ok s
    | none => .error ⟨"Failed to read source from stdin", OsError.noText.message⟩
  else orBreak ("Failed to read " ++ file) OsError.message (t.files.readText file)

/-- Runs a program under some settings. -/
def runReport (t : Situation) (c : Config) (deny : List Descriptor) (source : String) :
    Except Breakdown RunReport := do
  orBreak "Failed to start the execution service" Fault.message (Service.check c)
  let service := (Service.ofConfig c t.files).spawn ((Session.ofSource t.id source).deny deny)
  let service := service.finish (.ofConfig c) c 0
  let result := service.runs.head?.bind (·.report? t.elapsedMs)
  orBreak "Session failed" Fault.message (result.getD (.error (.alreadyRun t.id)))

/-- The settings with the deadline that is given, if one is. -/
def deadline (g : Given) (c : Config) : Config :=
  match g.timeoutMs with
  | some ms => c.withTimeout (ms * 1000)
  | none => c

/-- **Runs** the program in a file. -/
def run (t : Situation) (file : String) (g : Given) : Except Breakdown Answer := do
  let c ← t.config g.config
  let source ← t.source file
  let report ← t.runReport (deadline g c) g.deny source
  return .ofRunReport g.json report

/-- **Checks** the program in a file. -/
def audit (t : Situation) (file : String) (g : Given) : Except Breakdown Answer := do
  let c ← t.config g.config
  let source ← t.source file
  return match AuditReport.ofSource c.denylist g.deny source with
    | .ok report => .ofAuditReport g.json report
    | .error e => .ofSyntaxError e

/-- The **answer** to an invocation. -/
def invoke (t : Situation) (i : Invocation) : Answer :=
  let result := match i with
    | .run file g => t.run file g
    | .audit file g => t.audit file g
  match result with
  | .ok answer => answer
  | .error b => .ofBreakdown b

end Situation

end CapabilityGate
