import CapabilityGate.Config.Basic
import CapabilityGate.Files.OsError
import CapabilityGate.Report.RunReport

/-!
# Faults

A run can end with an outcome that is reported, or it can break off because of a fault.

## Main definitions

* `Fault`: why settings are refused, or why a run breaks off.
* `Fault.kind`: what the fault concerns.
* `Fault.message`: its wording, which starts with the heading of its kind.
-/

namespace CapabilityGate

/-- What a fault concerns. -/
inductive FaultKind where
  /-- The directory of a run. -/
  | workspace
  /-- The compiler. -/
  | compiler
  /-- A program that is needed and not there. -/
  | tool
  /-- The start of a program. -/
  | sandbox
  /-- The settings. -/
  | config
  /-- A descriptor. -/
  | descriptor
  /-- A library. -/
  | library
  /-- The order of calls. -/
  | system
  /-- Files. -/
  | files
  deriving Repr, DecidableEq

/-- What stands in front of the wording of a fault. -/
def FaultKind.heading : FaultKind → String
  | workspace => "Workspace error: "
  | compiler => "Compiler error: "
  | tool => "Tool not found: "
  | sandbox => "Sandbox error: "
  | config => "Configuration error: "
  | descriptor => "Invalid capability descriptor: "
  | library => "Invalid library reference: "
  | system => "System error: "
  | files => "IO error: "

/-- Why settings are refused, or why a run breaks off. -/
inductive Fault where
  /-- The settings are refused. -/
  | config (cause : ConfigFault)
  /-- The file with the settings cannot be read. -/
  | configUnreadable (path : String) (cause : OsError)
  /-- The text of the settings is no such text, perhaps because of a descriptor in it. -/
  | configMalformed (cause : Option DescriptorError)
  /-- A text is no descriptor. -/
  | descriptor (cause : DescriptorError)
  /-- The name of an allowed library is none. -/
  | crateName (name : String)
  /-- A library that every program is linked with has no file. -/
  | platformUnknown (name : String)
  /-- The file of a library is not there. -/
  | libraryMissing (name path : String)
  /-- The directory that holds the directories of runs cannot be made. -/
  | tempRoot (path : String) (cause : OsError)
  /-- The directory of a run cannot be made. -/
  | workspace (path : String) (cause : OsError)
  /-- The file that takes the place of the support file cannot be copied. -/
  | template (path : String) (cause : OsError)
  /-- The support file cannot be written. -/
  | supportFile (cause : OsError)
  /-- The directory of a run cannot be removed. -/
  | removal (path : String) (cause : OsError)
  /-- The compiler is not there. -/
  | toolMissing (tool : String)
  /-- The compiler cannot be started. -/
  | compilerStart (path : String) (cause : OsError)
  /-- The compiler was successful and made no program. -/
  | artifactMissing (path : String)
  /-- The program cannot be started. -/
  | programStart (cause : OsError)
  /-- The session has been run before. -/
  | alreadyRun (id : RunId)
  /-- Something else that a part of the system reports. -/
  | reported (kind : FaultKind) (text : String)
  deriving Repr, DecidableEq

namespace Fault

/-- What a fault **concerns**. -/
def kind : Fault → FaultKind
  | config _ | configUnreadable _ _ | configMalformed _ => .config
  | descriptor _ => .descriptor
  | crateName _ | platformUnknown _ | libraryMissing _ _ => .library
  | tempRoot _ _ | workspace _ _ | template _ _ | supportFile _ | removal _ _ => .workspace
  | toolMissing _ => .tool
  | compilerStart _ _ | artifactMissing _ => .compiler
  | programStart _ => .sandbox
  | alreadyRun _ => .system
  | reported kind _ => kind

/-- The wording of a fault without its heading. -/
def detail : Fault → String
  | config cause => cause.message
  | configUnreadable path cause => "Failed to read config " ++ path ++ ": " ++ cause.message
  | configMalformed none => "Invalid config"
  | configMalformed (some cause) =>
    "Invalid config: " ++ FaultKind.descriptor.heading ++ cause.message
  | descriptor cause => cause.message
  | crateName name => "'" ++ name ++ "' is not a valid crate name"
  | platformUnknown name => "platform crate '" ++ name ++ "' has no library path"
  | libraryMissing name path => "library for '" ++ name ++ "' not found at " ++ path
  | tempRoot path cause => "Failed to create temp root " ++ path ++ ": " ++ cause.message
  | workspace path cause => "Failed to create workspace " ++ path ++ ": " ++ cause.message
  | template path cause => "Failed to copy support template " ++ path ++ ": " ++ cause.message
  | supportFile cause => "Failed to write support file: " ++ cause.message
  | removal path cause => "Failed to remove workspace " ++ path ++ ": " ++ cause.message
  | toolMissing tool => tool ++ ": cannot find binary path"
  | compilerStart path cause => "Failed to spawn " ++ path ++ ": " ++ cause.message
  | artifactMissing path => "Compiler reported success but " ++ path ++ " is missing"
  | programStart cause => "Failed to spawn process: " ++ cause.message
  | alreadyRun id => "Session " ++ id.text ++ " has already been run"
  | reported _ text => text

/-- The **wording** of a fault. -/
def message (f : Fault) : String :=
  f.kind.heading ++ f.detail

end Fault

end CapabilityGate
