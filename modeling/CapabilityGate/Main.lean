import CapabilityGate.CommandLine.Answer

/-!
# The command line

Reads the files that an invocation names, and prints the answer to it.
-/

namespace CapabilityGate.CommandLine

/-- The help text. -/
def helpText : String :=
  Answer.unlines ["Audit, build and run untrusted Rust programs under a hard deadline", "",
    "Usage: code-sandbox [OPTIONS] <COMMAND>", "", "Commands:",
    "  run    Audit, compile and run a program",
    "  audit  Audit a program without compiling it",
    "  help   Print this message", "", "Options:",
    "  -c, --config <CONFIG>     Sandbox configuration file (TOML)",
    "  -d, --deny <DESCRIPTOR>   Deny a capability",
    "      --timeout-ms <MS>     Execution deadline in milliseconds",
    "      --json                Print the report as JSON"]

/-- What is printed for a command line that asks for nothing that can be done. -/
def usage : UsageError → Answer
  | .help => ⟨0, helpText, ""⟩
  | .version => ⟨0, "code-sandbox 0.1.0\n", ""⟩
  | .nothing => ⟨2, "", helpText⟩
  | _ => ⟨2, "", "error: invalid arguments\n\nFor more information, try '--help'.\n"⟩

/-- The paths of the files that an invocation names. -/
def paths : Invocation → List String
  | .run file g | .audit file g => file :: g.config.toList

/-- A tree with the given files in it. -/
def filesOf (contents : List (String × List UInt8)) : Files :=
  contents.foldl (fun f (path, bytes) =>
    let f := ((FilePath.parent? path).elim f fun above => (f.makeDirectories above).1)
    (f.write path (.file bytes)).toOption.getD f)
    ⟨.directory [("tmp", .directory []), ("here", .directory [])], ["here"]⟩

/-- The bytes of a file, if it can be read. -/
def readBytes (path : String) : IO (Option (List UInt8)) := do
  try
    return some (← IO.FS.readBinFile path).toList
  catch _ =>
    return none

/-- A new identifier. -/
def newId : IO RunId := do
  let digits ← (List.range 32).mapM fun i => do
    let n ← IO.rand 0 15
    let n := if i = 12 then 4 else if i = 16 then 8 + n % 4 else n
    return JsonText.hexDigit n
  return ⟨digits⟩

/-- What an invocation finds. -/
def situation (i : Invocation) : IO Situation := do
  let contents ← (paths i).filterMapM fun path => do
    return (← readBytes path).map fun bytes => (path, bytes)
  let stdin ← if (paths i).contains "-" then (← IO.getStdin).readBinToEnd else pure ByteArray.empty
  return ⟨filesOf contents, stdin.toList, ← newId, 0⟩

/-- The answer to a command line. -/
def answerTo (args : List String) : IO Answer := do
  match Invocation.ofArguments args with
  | .ok i => return (← situation i).invoke i
  | .error e => return usage e

end CapabilityGate.CommandLine

/-- Prints the answer to a command line. -/
def main (args : List String) : IO UInt32 := do
  let answer ← CapabilityGate.CommandLine.answerTo args
  (← IO.getStdout).putStr answer.stdout
  (← IO.getStderr).putStr answer.stderr
  return answer.status.toUInt32
