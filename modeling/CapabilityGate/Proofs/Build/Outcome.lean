import CapabilityGate.Build.Compiler
import CapabilityGate.Proofs.Build.Messages

/-!
# How compiling ends

However a compiler ends, whatever it writes and whether or not it makes a program, the outcome of
compiling says what happened: a program is built only if the compiler was successful and the program
is there, and a failure comes with an error, which is made up if the compiler names none. None of
this depends on how a line that the compiler writes is decoded.

## Main definitions

* `Compiler.IsAccountedFor`: what is promised of the outcome of compiling.

## Main results

* `Compiler.exists_error_of_failed`: a failure comes with an error.
* `Compiler.judge_of_failure`: what is reported of a compiler that fails in time.
* `Compiler.outcome_is_accounted_for`: the promise is kept for every compiler.
-/

namespace CapabilityGate.Compiler

variable {decode : Message.Decoding} {c : CompilerConfig} {f : Files}
  {source output written : String} {libraries : List Library} {ending : Ending}
  {ds : List Diagnostic}

/-! ### Judging -/

/-- The diagnostics of a failure have **an error** among them. -/
theorem exists_error_of_failure (decode : Message.Decoding) (ending : Ending) (written : String) :
    ∃ d ∈ failure decode ending written, d.isError = true := by
  rw [failure]
  split
  next herror => exact List.any_eq_true.mp herror
  next => exact ⟨unexplained ending written, by simp, rfl⟩

/-- What is judged to have failed has **an error**. -/
theorem exists_error_of_judge (h : judge decode c f output written ending = .ok (.failed ds)) :
    ∃ d ∈ ds, d.isError = true := by
  rw [judge.eq_def] at h
  split at h
  next =>
    cases h
    exact ⟨_, List.mem_singleton_self _, rfl⟩
  next =>
    split at h
    next =>
      split at h
      next => exact nomatch h
      next => exact nomatch h
    next =>
      cases h
      exact exists_error_of_failure _ _ _

/-- What is judged to be built is **there**, and the compiler was successful. -/
theorem of_judge {path : String} (h : judge decode c f output written ending = .ok (.built path)) :
    path = output ∧ f.isThere output = true ∧ ending.isSuccess = true := by
  rw [judge.eq_def] at h
  split at h
  next => exact nomatch h
  next =>
    split at h
    next hsuccess =>
      split at h
      next hthere =>
        cases h
        exact ⟨rfl, hthere, hsuccess⟩
      next => exact nomatch h
    next => exact nomatch h

/-- A compiler that ends in time without success is judged by **what it wrote**. -/
theorem judge_of_failure (hends : ending ≠ .never) (hfails : ending.isSuccess = false) :
    judge decode c f output written ending = .ok (.failed (failure decode ending written)) := by
  cases ending with
  | never => exact absurd rfl hends
  | exit code | signal n =>
      rw [judge, if_neg (by simp [hfails])]
      exact nofun

/-! ### Compiling -/

/-- Compiling that comes to an outcome **lets a compiler run**, and the outcome is what this is
judged to be. -/
theorem exists_script_of_compileWith {outcome : CompileOutcome}
    (h : (compileWith decode c f source libraries output).result = .ok outcome) :
    ∃ tool script, Tool.find? f c.program = some (tool, .compiler script) ∧
      judge decode c (compileWith decode c f source libraries output).files output
        (Text.decodeLossy script.stderr) script.ending = .ok outcome := by
  rw [compileWith] at h ⊢
  split at h
  next tool script hfind =>
    rw [start] at h ⊢
    split at h
    next => exact nomatch h
    next hplain =>
      rw [if_neg hplain]
      exact ⟨tool, script, hfind, h⟩
  next => exact nomatch h
  next => exact nomatch h

/-- A compiler that was started and came to its end **ended in time**, and the outcome is what it is
judged to be. -/
theorem judge_of_received {tool : String} {script : CompilerScript}
    (hfind : Tool.find? f c.program = some (tool, .compiler script))
    (hreceived : (compileWith decode c f source libraries output).received.isSome = true) :
    script.ending ≠ .never ∧ (compileWith decode c f source libraries output).result =
      judge decode c (compileWith decode c f source libraries output).files output
        (Text.decodeLossy script.stderr) script.ending := by
  rw [compileWith, hfind] at hreceived ⊢
  dsimp only at hreceived ⊢
  rw [start] at hreceived ⊢
  split at hreceived
  next => exact nomatch hreceived
  next hplain =>
    rw [if_neg hplain]
    refine ⟨fun hnever => ?_, rfl⟩
    simp [hnever] at hreceived

/-- What is **promised of the outcome** of compiling a program. -/
structure IsAccountedFor (decode : Message.Decoding) (c : CompilerConfig) (f : Files)
    (source : String) (libraries : List Library) (output : String) : Prop where
  /-- A program is built only by a compiler that was successful in time, and the program is
  there. -/
  built : ∀ path, (compileWith decode c f source libraries output).result = .ok (.built path) →
    path = output ∧ (compileWith decode c f source libraries output).files.isThere output = true ∧
      ∃ tool script, Tool.find? f c.program = some (tool, .compiler script) ∧
        script.ending.isSuccess = true
  /-- A failure comes with an error. -/
  failed : ∀ ds, (compileWith decode c f source libraries output).result = .ok (.failed ds) →
    ∃ d ∈ ds, d.isError = true
  /-- A compiler that ended in time without success is reported with the diagnostics that its lines
  describe, in order, and behind them with an error that is made up if none of them is one. -/
  unsuccessful : ∀ tool script, Tool.find? f c.program = some (tool, .compiler script) →
    (compileWith decode c f source libraries output).received.isSome = true →
      script.ending.isSuccess = false →
        ∃ found, Message.Described decode (Text.lines (Text.decodeLossy script.stderr)) found ∧
          (compileWith decode c f source libraries output).result = .ok (.failed
            (if found.any Diagnostic.isError then found
            else found ++ [unexplained script.ending (Text.decodeLossy script.stderr)]))
  /-- Lines that describe nothing may be put in wherever a line starts. -/
  inserted : ∀ before piece after : List UInt8, Text.EndsLine before →
    Text.EndsLine piece ∨ after = [] →
      (∀ line ∈ Text.lines (Text.decodeLossy piece), ∀ d, ¬ Message.Describes decode line d) →
        Message.diagnostics decode (Text.decodeLossy (before ++ piece ++ after)) =
          Message.diagnostics decode (Text.decodeLossy (before ++ after))

/-- **No outcome is silent**: what is promised of the outcome of compiling holds of every program,
for every compiler and whatever its lines are decoded into. -/
theorem outcome_is_accounted_for (decode : Message.Decoding) (c : CompilerConfig) (f : Files)
    (source : String) (libraries : List Library) (output : String) :
    IsAccountedFor decode c f source libraries output where
  built path h := by
    obtain ⟨tool, script, hfind, hjudge⟩ := exists_script_of_compileWith h
    obtain ⟨hpath, hthere, hsuccess⟩ := of_judge hjudge
    exact ⟨hpath, hthere, tool, script, hfind, hsuccess⟩
  failed ds h := by
    obtain ⟨tool, script, -, hjudge⟩ := exists_script_of_compileWith h
    exact exists_error_of_judge hjudge
  unsuccessful tool script hfind hreceived hfails := by
    obtain ⟨hends, hresult⟩ := judge_of_received hfind hreceived
    rw [judge_of_failure hends hfails, failure] at hresult
    exact ⟨_, Message.described_iff.mpr rfl, hresult⟩
  inserted before piece after hbefore hpiece hnone :=
    Message.diagnostics_insert hbefore hpiece hnone

/-- A line that is no JSON. -/
def noiseLine : List UInt8 :=
  Text.bytesOf "no JSON\n"

/-- The JSON text of a warning. -/
def warningLine : List UInt8 :=
  Text.bytesOf "\x7b\"message\":\"unused\",\"level\":\"warning\"\x7d\n"

/-- A compiler that **warns and fails**, behind a line that is no JSON. -/
def warningScript : CompilerScript where
  stderr := noiseLine ++ warningLine
  artifact := none
  ending := .exit 1

/-- Files with nothing but this compiler. -/
def warningFiles : Files :=
  ⟨.directory [("bin", .directory [("rustc", .executable (.compiler warningScript))])], []⟩

/-- A compiler that warns and fails is **reported with the warning and an error**, and the line that
is no JSON might as well not be there. -/
theorem failure_with_warning_accounted_for :
    Tool.find? warningFiles "rustc" = some ("/bin/rustc", .compiler warningScript) ∧
      (compile {} warningFiles "" [] "/out").received.isSome = true ∧
      warningScript.ending.isSuccess = false ∧
      (∃ found, Message.Described Message.ofLine?
          (Text.lines (Text.decodeLossy warningScript.stderr)) found ∧
        (compile {} warningFiles "" [] "/out").result = .ok (.failed
          (if found.any Diagnostic.isError then found
          else found ++ [unexplained (.exit 1) (Text.decodeLossy warningScript.stderr)]))) ∧
      Message.diagnostics Message.ofLine? (Text.decodeLossy ([] ++ noiseLine ++ warningLine)) =
        Message.diagnostics Message.ofLine? (Text.decodeLossy ([] ++ warningLine)) := by
  have hfind : Tool.find? warningFiles "rustc" = some ("/bin/rustc", .compiler warningScript) := by
    rfl
  have hreceived : (compile {} warningFiles "" [] "/out").received.isSome = true := by
    rfl
  have hnoise : ∀ line ∈ Text.lines (Text.decodeLossy noiseLine),
      Message.diagnosticOn? Message.ofLine? line = none := by
    decide +kernel
  have hends : Text.EndsLine noiseLine := by
    have hlast : noiseLine.getLast? = some Text.lineFeed := by
      decide +kernel
    rw [Text.EndsLine, hlast]
    rintro b ⟨⟩
    rfl
  have hkept := outcome_is_accounted_for Message.ofLine? {} warningFiles "" [] "/out"
  exact ⟨hfind, hreceived, rfl, hkept.unsuccessful _ _ hfind hreceived rfl,
    hkept.inserted [] noiseLine warningLine nofun (.inl hends) fun line hline =>
      Message.diagnosticOn?_eq_none_iff.mp (hnoise line hline)⟩

example : (Message.diagnostics Message.ofLine? (Text.decodeLossy warningScript.stderr)).map
    Diagnostic.severity = [.warning] := by
  decide +kernel

end CapabilityGate.Compiler
