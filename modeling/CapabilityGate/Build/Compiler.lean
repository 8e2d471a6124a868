import CapabilityGate.Build.Library
import CapabilityGate.Build.Message

/-!
# Compiling

The compiler is a tool that is looked up by its name or path. It gets the program as its input,
is told by arguments what to make of it, and reports in messages. Compiling ends with a program
or with diagnostics, of which at least one is an error. How the lines that it writes are decoded
into messages is a parameter, so that what is said of compiling does not depend on it.

## Main definitions

* `Tool.find?`: the executable that a name or path stands for.
* `Compiler.arguments`: the arguments for the compiler.
* `CompileOutcome`: what compiling ends with.
* `Compiler.judge`: what to make of the way in which a compiler ended.
* `Compiler.compileWith`: compiles a program, with some decoding of messages.
* `Compiler.compile`: compiles a program, with messages that are JSON texts.
-/

namespace CapabilityGate

/-- The executable at a path, with its path from the root. -/
def Files.executable? (f : Files) (path : String) : Option (String × Executable) :=
  match f.stat path with
  | .ok (place, .executable what) => some (Files.absolute place, what)
  | _ => none

/-- The directories in which tools are searched for, if they are named without a directory. -/
def Tool.searchPath : List String := ["/usr/local/bin", "/usr/bin", "/bin"]

/-- The **executable** that the name or path of a tool stands for. -/
def Tool.find? (f : Files) (tool : String) : Option (String × Executable) :=
  if tool.toList.contains '/' then f.executable? tool
  else Tool.searchPath.findSome? fun directory => f.executable? (FilePath.join directory tool)

/-- What compiling ends with. -/
inductive CompileOutcome where
  /-- The program is at the path. -/
  | built (path : String)
  /-- There is no program. -/
  | failed (diagnostics : List Diagnostic)
  deriving Repr, DecidableEq

/-- What a compiler got to know before it ended. -/
structure Received where
  /-- Its arguments. -/
  arguments : List String
  /-- Its input. -/
  input : String
  deriving Repr, DecidableEq

/-- What there is after compiling. -/
structure Compilation where
  /-- The files. -/
  files : Files
  /-- What a compiler got to know, if one was started and came to its end. -/
  received : Option Received
  /-- What compiling ended with. -/
  result : Except Fault CompileOutcome

namespace Compiler

/-- The directories of libraries, each once, in order. -/
def directories (libraries : List Library) : List String :=
  (libraries.filterMap fun l => FilePath.parent? l.path).foldl
    (fun done path => FilePath.insertOrdered path done) []

/-- The **arguments** for the compiler: how to compile, where to put the program, what to link it
with, and where to look for what the libraries need in turn. -/
def arguments (c : CompilerConfig) (libraries : List Library) (output : String) : List String :=
  ["-", "--crate-name", c.crateName, "--crate-type", "bin", "--edition", c.edition,
    "-C", "opt-level=" ++ c.optLevel, "--error-format=json", "-o", output] ++
  libraries.flatMap (fun l => ["--extern", l.name ++ "=" ++ l.path]) ++
  (directories libraries).flatMap fun path => ["-L", "dependency=" ++ path]

/-- The error that stands for a failure without an error of its own: what the compiler wrote, or
how it ended if it wrote nothing. -/
def unexplained (ending : Ending) (written : String) : Diagnostic :=
  let trimmed := Text.trimBlanks written
  .error (if trimmed.isEmpty then "compiler exited with " ++ ending.text else trimmed)

/-- The diagnostics of a failure. One of them is an error. -/
def failure (decode : Message.Decoding) (ending : Ending) (written : String) : List Diagnostic :=
  let found := Message.diagnostics decode written
  if found.any Diagnostic.isError then found else found ++ [unexplained ending written]

/-- **Judges** how a compiler ended that wrote some messages: the program has to be there if it
was successful. -/
def judge (decode : Message.Decoding) (c : CompilerConfig) (f : Files) (output written : String) :
    Ending → Except Fault CompileOutcome
  | .never => .ok <| .failed
      [.error ("compilation exceeded the " ++ toString c.timeoutSecs ++ "s deadline")]
  | ending =>
    if ending.isSuccess then
      if f.isThere output then .ok (.built output) else .error (.artifactMissing output)
    else .ok (.failed (failure decode ending written))

/-- Looks for the compiler. -/
def check (c : CompilerConfig) (f : Files) : Except Fault Unit :=
  if (Tool.find? f c.program).isSome then .ok () else .error (.toolMissing c.program)

/-- The files when a compiler has made its program, if it makes one and if that is possible. -/
def filesAfter (f : Files) (script : CompilerScript) (output : String) : Files :=
  match script.artifact with
  | none => f
  | some program =>
    match f.write output (.executable (.program program)) with
    | .ok f => f
    | .error _ => f

/-- Lets a compiler run that is at `path`. -/
def start (decode : Message.Decoding) (c : CompilerConfig) (f : Files) (path : String)
    (script : CompilerScript) (arguments : List String) (source output : String) : Compilation :=
  if arguments.any (·.toList.contains '\x00') then
    ⟨f, none, .error (.compilerStart path .nullInArgument)⟩
  else
    let f := filesAfter f script output
    let received := match script.ending with
      | .never => none
      | _ => some ⟨arguments, source⟩
    ⟨f, received, judge decode c f output (Text.decodeLossy script.stderr) script.ending⟩

/-- Compiles a program text, **whatever way** the lines of the compiler are decoded. -/
def compileWith (decode : Message.Decoding) (c : CompilerConfig) (f : Files) (source : String)
    (libraries : List Library) (output : String) : Compilation :=
  match Tool.find? f c.program with
  | some (path, .compiler script) =>
    start decode c f path script (arguments c libraries output) source output
  | some (path, .program _) => ⟨f, none, .error (.compilerStart path .denied)⟩
  | none => ⟨f, none, .error (.toolMissing c.program)⟩

/-- **Compiles** a program text. The messages of the compiler are JSON texts. -/
def compile (c : CompilerConfig) (f : Files) (source : String) (libraries : List Library)
    (output : String) : Compilation :=
  compileWith Message.ofLine? c f source libraries output

end Compiler

end CapabilityGate
