import CapabilityGate.Audit.Verdict
import CapabilityGate.Build.Compiler
import CapabilityGate.Program.Parse

/-!
# What a run relies on

A run has programs parsed, resolved and compiled for it, and libraries looked up. All of this is a
toolchain, so that a run can be studied without a compiler. What a program does to the files while
it runs is part of it too; the programs that scripts stand for only write output.

## Main definitions

* `Toolchain`: how programs are parsed, resolved, linked and compiled, and what they do.
* `Toolchain.ofConfig`: the toolchain that settings describe.
* `Plan`, `Toolchain.planned`: a toolchain that parses programs and does what is planned after
  that.
-/

namespace CapabilityGate

open Program

/-- A program text and its tree. -/
structure ParsedProgram where
  /-- The text. -/
  source : String
  /-- The tree. -/
  tree : SourceFile

/-- The libraries of a program that refers to some crates. -/
abbrev LibraryLookup : Type := Files → List String → Except Fault (List Library)

/-- How programs are turned into something that runs. -/
structure Toolchain where
  /-- Parses a program. -/
  parse : String → Except (List Diagnostic) ParsedProgram
  /-- Finds out what a program uses. -/
  resolve : ParsedProgram → Except (List Diagnostic) Model
  /-- Checks that the tools are there. -/
  check : Files → Except Fault Unit
  /-- Looks up the libraries of a program. -/
  libraries : LibraryLookup
  /-- Compiles a program with some libraries to a path. -/
  compile : ParsedProgram → List Library → (output : String) → Files →
    Files × Except Fault CompileOutcome
  /-- The files after the program at a path has run in a directory. -/
  aftermath : (path directory : String) → Files → Files

namespace Toolchain

/-- Parses a program. What is wrong with it is one diagnostic. -/
def parseSource (source : String) : Except (List Diagnostic) ParsedProgram :=
  match SourceFile.parse source with
  | .ok tree => .ok ⟨source, tree⟩
  | .error e => .error [.ofSyntaxError e]

/-- Finds out what a program uses. -/
def resolveProgram (p : ParsedProgram) : Except (List Diagnostic) Model :=
  .ok (Model.ofProgram p.tree)

/-- The **toolchain** that settings describe. -/
def ofConfig (c : Config) : Toolchain where
  parse := parseSource
  resolve := resolveProgram
  check := Compiler.check c.compiler
  libraries := c.libraries.libraries
  compile p libraries output f :=
    let made := Compiler.compile c.compiler f p.source libraries output
    (made.files, made.result)
  aftermath _ _ f := f

end Toolchain

/-- What is planned to happen to a program once it is parsed. -/
structure Plan where
  /-- The diagnostics with which it is not resolved. -/
  unresolved : Option (List Diagnostic)
  /-- Why the tools are not there. -/
  toolFault : Option Fault
  /-- Why it cannot be compiled. -/
  compileFault : Option Fault
  /-- The diagnostics with which it is not compiled. -/
  uncompiled : Option (List Diagnostic)
  /-- What it does when it runs; without this there is no program after compiling. -/
  program : Option Script
  /-- Whether compiling removes the directory of the run. -/
  removesWorkspace : Bool
  deriving Inhabited

namespace Plan

/-- What is planned to come out of compiling. -/
def outcome (p : Plan) (output : String) : Except Fault CompileOutcome :=
  match p.compileFault, p.uncompiled with
  | some fault, _ => .error fault
  | none, some diagnostics => .ok (.failed diagnostics)
  | none, none => .ok (.built output)

/-- The files after the planned compiling. -/
def filesAfter (p : Plan) (f : Files) (output : String) : Files :=
  let f := match p.program with
    | none => f
    | some script => (f.write output (.executable (.program script))).toOption.getD f
  if p.removesWorkspace then ((FilePath.parent? output).elim f fun above => (f.removeAll above).1)
  else f

end Plan

namespace Toolchain

/-- The toolchain that parses programs, and then does for each program text what is **planned**
for it. The tools are missing for all programs, if they are for one. -/
def planned (plans : List (String × Plan)) (libraries : LibraryLookup) : Toolchain where
  parse := parseSource
  resolve p :=
    match ((plans.lookup p.source).getD default).unresolved with
    | some diagnostics => .error diagnostics
    | none => resolveProgram p
  check _ :=
    match plans.findSome? (·.2.toolFault) with
    | some fault => .error fault
    | none => .ok ()
  libraries := libraries
  compile p _ output f :=
    let plan := (plans.lookup p.source).getD default
    (plan.filesAfter f output, plan.outcome output)
  aftermath _ _ f := f

end Toolchain

end CapabilityGate
