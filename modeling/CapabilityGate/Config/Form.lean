import CapabilityGate.Config.Basic
import CapabilityGate.Form.Read

/-!
# Reading settings

Readers for the structured values of settings. Every setting may be left out and has its default
then. `strict` is as for `Form.record`.

## Main definitions

* `Limits.ofForm`, `WorkspaceConfig.ofForm`, `CompilerConfig.ofForm`, `AllowList.ofForm`,
  `Config.ofForm`.
-/

namespace CapabilityGate

open Form

/-- Reads the limits on programs. -/
def Limits.ofForm (strict : Bool) : Reads Limits := fun d => do
  let f ← record strict [field "cpu_time" (natural 32), field "file_size" (natural 64)] d
  let usual : Limits := {}
  return ⟨← orElse f "cpu_time" (natural 32) usual.cpuTime,
    ← orElse f "file_size" (natural 64) usual.fileSize⟩

/-- Reads the settings for directories. -/
def WorkspaceConfig.ofForm (strict : Bool) : Reads WorkspaceConfig := fun d => do
  let f ← record strict [field "temp_root" (maybe Form.text), field "prefix" Form.text,
    field "support_template" (maybe Form.text)] d
  let usual : WorkspaceConfig := {}
  return ⟨← optional f "temp_root" Form.text, ← orElse f "prefix" Form.text usual.namePrefix,
    ← optional f "support_template" Form.text⟩

/-- Reads the settings of the compiler. -/
def CompilerConfig.ofForm (strict : Bool) : Reads CompilerConfig := fun d => do
  let f ← record strict [field "rustc" Form.text, field "edition" Form.text,
    field "opt_level" Form.text, field "compile_timeout_secs" (natural 64),
    field "crate_name" Form.text, field "artifact_name" Form.text] d
  let usual : CompilerConfig := {}
  return ⟨← orElse f "rustc" Form.text usual.program, ← orElse f "edition" Form.text usual.edition,
    ← orElse f "opt_level" Form.text usual.optLevel,
    ← orElse f "compile_timeout_secs" (natural 64) usual.timeoutSecs,
    ← orElse f "crate_name" Form.text usual.crateName,
    ← orElse f "artifact_name" Form.text usual.artifactName⟩

/-- Puts an entry into a list that is ordered by name, in place of one of that name. -/
def insertEntry (name value : String) : List (String × String) → List (String × String)
  | [] => [(name, value)]
  | (n, v) :: rest =>
    if name == n then (name, value) :: rest
    else if name < n then (name, value) :: (n, v) :: rest
    else (n, v) :: insertEntry name value rest

/-- Reads a record of texts, ordered by name. -/
def entries : Reads (List (String × String))
  | .record fields =>
    fields.foldlM (fun done (name, d) => (Form.text d).map (insertEntry name · done)) []
  | _ => .error .mismatch

/-- Reads the allowed libraries. -/
def AllowList.ofForm (strict : Bool) : Reads AllowList := fun d => do
  let f ← record strict [field "version" Form.text, field "crates" entries,
    field "platform" (listOf Form.text)] d
  let usual : AllowList := {}
  return ⟨← orElse f "version" Form.text usual.version, ← orElse f "crates" entries usual.crates,
    ← orElse f "platform" (listOf Form.text) usual.platform⟩

/-- Reads all settings. -/
def Config.ofForm (strict : Bool) : Reads Config := fun d => do
  let f ← record strict [field "timeout_ms" (natural 64), field "drain_grace_ms" (natural 64),
    field "max_concurrent_sessions" (natural 64), field "denylist" (listOf descriptorText),
    field "workspace" (WorkspaceConfig.ofForm strict),
    field "compiler" (CompilerConfig.ofForm strict),
    field "libraries" (AllowList.ofForm strict), field "limits" (Limits.ofForm strict)] d
  let usual : Config := {}
  return ⟨← orElse f "timeout_ms" (natural 64) usual.timeoutMs,
    ← orElse f "drain_grace_ms" (natural 64) usual.drainGraceMs,
    ← orElse f "max_concurrent_sessions" (natural 64) usual.maxSessions,
    ← orElse f "denylist" (listOf descriptorText) usual.denylist,
    ← orElse f "workspace" (WorkspaceConfig.ofForm strict) usual.workspace,
    ← orElse f "compiler" (CompilerConfig.ofForm strict) usual.compiler,
    ← orElse f "libraries" (AllowList.ofForm strict) usual.libraries,
    ← orElse f "limits" (Limits.ofForm strict) usual.limits⟩

end CapabilityGate
