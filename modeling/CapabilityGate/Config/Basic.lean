import CapabilityGate.Capability.Descriptor

/-!
# Configuration

The settings that all runs share.

## Main definitions

* `Config`, and its parts `Limits`, `WorkspaceConfig`, `CompilerConfig` and `AllowList`: the
  settings, with their defaults.
* `ConfigFault`: why settings are refused, with its wording in `ConfigFault.message`.
* `Config.validate`: the first reason to refuse settings.
* `Config.withTimeout`, `Config.withTempRoot`: changed settings.
-/

namespace CapabilityGate

/-- The limits on the resources of a program. Zero stands for no limit. -/
structure Limits where
  /-- Seconds of processor time. -/
  cpuTime : Nat := 30
  /-- The size of a file that the program writes, in bytes. -/
  fileSize : Nat := 10 * 1024 * 1024
  deriving Repr, DecidableEq

instance : Inhabited Limits := ⟨{}⟩

/-- The settings for the directories that runs take place in. -/
structure WorkspaceConfig where
  /-- The directory that holds them; the temporary directory of the system if there is none. -/
  tempRoot : Option String := none
  /-- What stands before the identifier of a run in the name of its directory. -/
  namePrefix : String := "sandbox-"
  /-- A file that is copied into each directory in place of the usual one. -/
  supportTemplate : Option String := none
  deriving Repr, DecidableEq

instance : Inhabited WorkspaceConfig := ⟨{}⟩

/-- The settings of the compiler. -/
structure CompilerConfig where
  /-- The compiler's name or path. -/
  program : String := "rustc"
  /-- The edition of the language. -/
  edition : String := "2021"
  /-- The level of optimisation. -/
  optLevel : String := "2"
  /-- How long compiling may take, in seconds. -/
  timeoutSecs : Nat := 30
  /-- The name of the crate that a program becomes. -/
  crateName : String := "sandbox_program"
  /-- The name of the file that a program is compiled to. -/
  artifactName : String := "sandbox-program"
  deriving Repr, DecidableEq

instance : Inhabited CompilerConfig := ⟨{}⟩

/-- The libraries that programs may use. -/
structure AllowList where
  /-- A label for the set of libraries. -/
  version : String := ""
  /-- The file of each library, ordered by the library's name. -/
  crates : List (String × String) := []
  /-- The libraries that every program is linked with. -/
  platform : List String := []
  deriving Repr, DecidableEq

instance : Inhabited AllowList := ⟨{}⟩

/-- All settings. -/
structure Config where
  /-- How long a program may run, in milliseconds. -/
  timeoutMs : Nat := 3000
  /-- How long output is still read when a program has ended, in milliseconds. -/
  drainGraceMs : Nat := 200
  /-- How many runs may take place at a time. -/
  maxSessions : Nat := 4
  /-- What is denied to every program. -/
  denylist : List Descriptor := []
  /-- The directories of runs. -/
  workspace : WorkspaceConfig := {}
  /-- The compiler. -/
  compiler : CompilerConfig := {}
  /-- The libraries. -/
  libraries : AllowList := {}
  /-- The limits on programs. -/
  limits : Limits := {}
  deriving Repr, DecidableEq

instance : Inhabited Config := ⟨{}⟩

/-- Why settings are refused. -/
inductive ConfigFault where
  /-- Programs have no time to run. -/
  | zeroTimeout
  /-- No run may take place. -/
  | zeroSessions
  /-- There is no time to compile. -/
  | zeroCompileTimeout
  /-- The names of directories would lead somewhere else. -/
  | separatorInPrefix (name : String)
  /-- The edition is not known. -/
  | unknownEdition (edition : String)
  deriving Repr, DecidableEq

/-- The wording of refused settings. -/
def ConfigFault.message : ConfigFault → String
  | zeroTimeout => "timeout_ms must be greater than zero"
  | zeroSessions => "max_concurrent_sessions must be greater than zero"
  | zeroCompileTimeout => "compiler.compile_timeout_secs must be greater than zero"
  | separatorInPrefix name => "workspace.prefix must not contain a path separator: " ++ name
  | unknownEdition edition => "Unsupported edition: " ++ edition

namespace Config

/-- The known editions of the language. -/
def editions : List String := ["2015", "2018", "2021", "2024"]

/-- Accepts settings, or gives the first reason to refuse them. -/
def validate (c : Config) : Except ConfigFault Unit := do
  if c.timeoutMs = 0 then throw .zeroTimeout
  if c.maxSessions = 0 then throw .zeroSessions
  if c.compiler.timeoutSecs = 0 then throw .zeroCompileTimeout
  if c.workspace.namePrefix.toList.contains '/' then
    throw (.separatorInPrefix c.workspace.namePrefix)
  if !editions.contains c.compiler.edition then throw (.unknownEdition c.compiler.edition)

/-- The settings with another deadline, which is given in microseconds: at least a millisecond,
and as many milliseconds as 64 bits hold. -/
def withTimeout (c : Config) (micros : Nat) : Config :=
  { c with timeoutMs := max (micros / 1000) 1 % UInt64.size }

/-- The settings with another directory for runs. -/
def withTempRoot (c : Config) (root : String) : Config :=
  { c with workspace := { c.workspace with tempRoot := some root } }

end Config

end CapabilityGate
