import CapabilityGate.Audit.Report
import CapabilityGate.Config.Basic
import CapabilityGate.Data.Basic
import CapabilityGate.Report.RunReport

/-!
# Writing forms

The structured values that stand for the things that this library reports and is set up with.
The fields of a record come in a fixed order, and a value that is one of several kinds carries
the word for its kind in its first field.

## Main definitions

* `CallSite.form`, `Diagnostic.form`, `Outcome.form`, `Verdict.form`, `AuditReport.form`,
  `RunReport.form`, `Config.form`: the structured values.
-/

namespace CapabilityGate

/-- The word for a kind of call site. -/
def CallKind.word : CallKind → String
  | .path => "path"
  | .method => "method"
  | .reference => "reference"
  | .macroBody => "macro"

/-- The structured value of a number. -/
def Data.ofNat (n : Nat) : Data :=
  .int n

/-- The structured value of a call site. -/
def CallSite.form (s : CallSite) : Data :=
  .record [("container", .text s.container.text), ("method", .text s.method),
    ("kind", .text s.kind.word), ("line", .ofNat s.line), ("column", .ofNat s.column)]

/-- The structured value of a diagnostic. -/
def Diagnostic.form (d : Diagnostic) : Data :=
  .record [("severity", .text d.severity.word), ("message", .text d.message),
    ("code", .ofOption .text d.code), ("line", .ofOption .ofNat d.line),
    ("column", .ofOption .ofNat d.column), ("rendered", .ofOption .text d.rendered)]

/-- The structured value of an outcome. -/
def Outcome.form (o : Outcome) : Data :=
  .record <| ("status", .text o.word) :: match o with
    | .policyViolation site => [("call_site", site.form)]
    | .compileFailed diagnostics => [("diagnostics", .list (diagnostics.map Diagnostic.form))]
    | .completed code => [("exit_code", .int code)]
    | .notRun | .timedOut => []

/-- The structured value of a verdict. -/
def Verdict.form : Verdict → Data
  | .passed scanned => .record [("verdict", .text "passed"), ("scanned", .ofNat scanned)]
  | .violation site d =>
    .record [("verdict", .text "violation"), ("call_site", site.form), ("descriptor", .text d.text)]
  | .unresolved site => .record [("verdict", .text "unresolved"), ("call_site", site.form)]

/-- The structured value of an audit report. -/
def AuditReport.form (r : AuditReport) : Data :=
  .record [("call_sites", .list (r.sites.map CallSite.form)),
    ("namespaces", .ofTexts r.namespaces), ("verdict", r.verdict.form)]

/-- The structured value of the report of a run. -/
def RunReport.form (r : RunReport) : Data :=
  .record [("session_id", .text r.id.text), ("result", r.outcome.form),
    ("output", .text r.output), ("chunks", .ofTexts r.chunks),
    ("workspace", .ofOption .text r.workspace), ("elapsed_ms", .ofNat r.elapsedMs)]

/-- The structured value of the limits on programs. -/
def Limits.form (l : Limits) : Data :=
  .record [("cpu_time", .ofNat l.cpuTime), ("file_size", .ofNat l.fileSize)]

/-- The structured value of the settings for directories. -/
def WorkspaceConfig.form (w : WorkspaceConfig) : Data :=
  .record [("temp_root", .ofOption .text w.tempRoot), ("prefix", .text w.namePrefix),
    ("support_template", .ofOption .text w.supportTemplate)]

/-- The structured value of the settings of the compiler. -/
def CompilerConfig.form (c : CompilerConfig) : Data :=
  .record [("rustc", .text c.program), ("edition", .text c.edition),
    ("opt_level", .text c.optLevel), ("compile_timeout_secs", .ofNat c.timeoutSecs),
    ("crate_name", .text c.crateName), ("artifact_name", .text c.artifactName)]

/-- The structured value of the allowed libraries. -/
def AllowList.form (a : AllowList) : Data :=
  .record [("version", .text a.version),
    ("crates", .record (a.crates.map fun (name, path) => (name, .text path))),
    ("platform", .ofTexts a.platform)]

/-- The structured value of all settings. -/
def Config.form (c : Config) : Data :=
  .record [("timeout_ms", .ofNat c.timeoutMs), ("drain_grace_ms", .ofNat c.drainGraceMs),
    ("max_concurrent_sessions", .ofNat c.maxSessions),
    ("denylist", .ofTexts (c.denylist.map Descriptor.text)), ("workspace", c.workspace.form),
    ("compiler", c.compiler.form), ("libraries", c.libraries.form), ("limits", c.limits.form)]

end CapabilityGate
