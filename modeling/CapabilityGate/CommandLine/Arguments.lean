import CapabilityGate.Capability.Descriptor

/-!
# Arguments of the command line

The command line names a command, a file, and options. An option has a long name, which stands
behind two hyphens, and perhaps a short one of a letter, which stands behind one. The value of an
option is attached to it or is the next argument. Behind an argument of two hyphens everything is
a file.

A value that is not attached is kept until the next option or the end, and is only looked at then;
so an unknown argument behind a bad value is what is reported.

## Main definitions

* `Invocation`: what a command line asks for.
* `UsageError`: why a command line asks for nothing that can be done.
* `Invocation.ofArguments`: reads a command line.
-/

namespace CapabilityGate

/-- The values and switches on a command line. -/
structure Given where
  /-- The file with the settings. -/
  config : Option String
  /-- The file with the program. -/
  file : Option String
  /-- What is denied to the program. -/
  deny : List Descriptor
  /-- The deadline in milliseconds. -/
  timeoutMs : Option Nat
  /-- Whether the report is printed in a structured form. -/
  json : Bool
  deriving Repr, DecidableEq, Inhabited

/-- What a command line asks for. -/
inductive Invocation where
  /-- To run the program in a file. -/
  | run (file : String) (given : Given)
  /-- To check the program in a file. -/
  | audit (file : String) (given : Given)
  deriving Repr, DecidableEq

/-- Why a command line asks for nothing that can be done. -/
inductive UsageError where
  /-- Help is asked for. -/
  | help
  /-- The version is asked for. -/
  | version
  /-- There are no arguments. -/
  | nothing
  /-- No command is named. -/
  | noCommand
  /-- There is no such command. -/
  | unknownCommand
  /-- There is no such option, or there is one argument too many. -/
  | unknownArgument
  /-- No file is named. -/
  | noFile
  /-- An option has no value, or the name of a file is empty. -/
  | noValue
  /-- A value cannot be read. -/
  | badValue
  /-- An option is given twice. -/
  | repeated
  /-- An option that takes no value has one. -/
  | surplusValue
  deriving Repr, DecidableEq

namespace CommandLine

/-- Something on a command line that takes a value. -/
inductive Slot where
  /-- The file with the settings. -/
  | config
  /-- The file with the program. -/
  | file
  /-- What is denied. -/
  | deny
  /-- The deadline. -/
  | timeout
  deriving Repr, DecidableEq

/-- An option. -/
inductive Flag where
  /-- It takes a value. -/
  | value (slot : Slot)
  /-- Asks for a structured form. -/
  | json
  /-- Asks for help. -/
  | help
  /-- Asks for the version. -/
  | version
  deriving Repr, DecidableEq

/-- A command. -/
inductive Command where
  /-- Runs a program. -/
  | run
  /-- Checks a program. -/
  | audit
  /-- Shows help. -/
  | help
  deriving Repr, DecidableEq

/-- The command of a name. -/
def Command.ofName? (name : String) : Option Command :=
  [("run", run), ("audit", audit), ("help", help)].lookup name

/-- Where an argument stands: in front of the command or behind it. -/
inductive Level where
  /-- In front of the command. -/
  | top
  /-- Behind `run`. -/
  | run
  /-- Behind `audit`. -/
  | audit
  deriving Repr, DecidableEq

/-- The long names of options. -/
def Level.long : Level → List (String × Flag)
  | top => [("config", .value .config), ("help", .help), ("version", .version)]
  | run => [("config", .value .config), ("help", .help), ("deny", .value .deny), ("json", .json),
      ("timeout-ms", .value .timeout)]
  | audit => [("config", .value .config), ("help", .help), ("deny", .value .deny), ("json", .json)]

/-- The short names of options. -/
def Level.short : Level → List (Char × Flag)
  | top => [('c', .value .config), ('h', .help), ('V', .version)]
  | run | audit => [('c', .value .config), ('h', .help), ('d', .value .deny)]

/-- How far a command line has been read. -/
structure State where
  /-- What has been given. -/
  given : Given
  /-- What still needs its value, or has a value that has not been looked at. -/
  pending : Option (Slot × Option String)
  /-- Whether there has been a file. -/
  hasFile : Bool
  /-- Whether everything is a file from here on. -/
  trailing : Bool
  deriving Repr, Inhabited

/-- A number of 64 bits without a sign, perhaps with a plus in front. -/
def number? (s : String) : Option Nat :=
  let digits := match s.toList with
    | '+' :: rest => rest
    | cs => cs
  let n := digits.foldl (fun n c => n * 10 + (c.toNat - '0'.toNat)) 0
  if !digits.isEmpty && digits.all Char.isDigit && n < UInt64.size then some n else none

/-- A file that is named. -/
def fileName (s : String) : Except UsageError String :=
  if s.isEmpty then .error .noValue else .ok s

/-- What is given with one more value. -/
def addValue (g : Given) (slot : Slot) (value : String) : Except UsageError Given :=
  match slot with
  | .config => if g.config.isSome then .error .repeated
    else (fileName value).map fun s => { g with config := some s }
  | .file => (fileName value).map fun s => { g with file := some s }
  | .deny =>
    match Descriptor.parse value with
    | .ok d => .ok { g with deny := g.deny ++ [d] }
    | .error _ => .error .badValue
  | .timeout => if g.timeoutMs.isSome then .error .repeated
    else
      match number? value with
      | some n => .ok { g with timeoutMs := some n }
      | none => .error .badValue

namespace State

/-- Whether the next argument is a value. -/
def awaits (s : State) : Bool :=
  match s.pending with
  | some (_, none) => true
  | _ => false

/-- Looks at the value that has been kept. -/
def settle (s : State) : Except UsageError State :=
  match s.pending with
  | none => .ok s
  | some (_, none) => .error .noValue
  | some (slot, some value) =>
    (addValue s.given slot value).map fun given => { s with given, pending := none }

/-- Keeps a value, or waits for one. -/
def keep (s : State) (slot : Slot) (value : Option String) : Except UsageError State :=
  s.settle.map fun s => { s with pending := some (slot, value) }

/-- Takes the value that is attached to an option. -/
def attach (s : State) (slot : Slot) (value : String) : Except UsageError State := do
  let s ← s.settle
  let given ← addValue s.given slot value
  return { s with given }

/-- Takes an option without a value. -/
def switch (s : State) (flag : Flag) : Except UsageError State := do
  let s ← s.settle
  match flag with
  | .json =>
    if s.given.json then .error .repeated
    else .ok { s with given := { s.given with json := true } }
  | .help => .error .help
  | .version => .error .version
  | .value slot => .ok { s with pending := some (slot, none) }

/-- Takes an option by its long name, perhaps with a value behind an equals sign. -/
def takeLong (level : Level) (body : List Char) (s : State) : Except UsageError State :=
  let name := String.ofList (body.takeWhile (· != '='))
  let attached := match body.dropWhile (· != '=') with
    | [] => none
    | _ :: value => some (String.ofList value)
  match level.long.lookup name, attached with
  | none, _ => .error .unknownArgument
  | some (.value slot), none => s.keep slot none
  | some (.value slot), some value => s.attach slot value
  | some flag, none => s.switch flag
  | some _, some _ => .error .surplusValue

/-- Takes options by their short names. What follows an option with a value is the value. -/
def takeShort (level : Level) : List Char → State → Except UsageError State
  | [], s => .ok s
  | c :: rest, s =>
    match level.short.lookup c, rest with
    | none, _ => .error .unknownArgument
    | some (.value slot), [] => s.keep slot none
    | some (.value slot), '=' :: value => s.attach slot (String.ofList value)
    | some (.value slot), value => s.attach slot (String.ofList value)
    | some flag, rest => do takeShort level rest (← s.switch flag)

/-- Takes an argument that is no option. -/
def takeFile (level : Level) (arg : String) (s : State) : Except UsageError State :=
  match level with
  | .top =>
    .error <|
      if s.trailing && (Command.ofName? arg).isSome then .unknownArgument else .unknownCommand
  | _ =>
    if s.hasFile then .error .unknownArgument
    else (s.keep .file (some arg)).map fun s => { s with hasFile := true }

/-- Takes an argument that is no command. -/
def take (level : Level) (arg : String) (s : State) : Except UsageError State :=
  if s.trailing then s.takeFile level arg
  else
    match arg.toList, s.pending with
    | ['-', '-'], _ => .ok { s with trailing := true }
    | '-' :: '-' :: body, _ => s.takeLong level body
    | '-' :: c :: body, _ => s.takeShort level (c :: body)
    | _, some (slot, none) => .ok { s with pending := some (slot, some arg) }
    | _, _ => s.takeFile level arg

end State

/-- Takes arguments up to a command, if there may be one, or to the end. -/
def takeAll (level : Level) : List String → State →
    Except UsageError (State × Option (Command × List String))
  | [], s => .ok (s, none)
  | arg :: rest, s =>
    match if s.trailing || s.awaits || level ≠ .top then none else Command.ofName? arg with
    | some command => .ok (s, some (command, rest))
    | none => do takeAll level rest (← s.take level arg)

/-- What follows the command `help`: perhaps the name of a command. -/
def afterHelp : List String → UsageError
  | [] => .help
  | [name] => if (Command.ofName? name).isSome then .help else .unknownCommand
  | _ => .unknownCommand

/-- Reads everything behind a command: the file and what is given besides. -/
def behind (level : Level) (args : List String) : Except UsageError (String × Given) := do
  let (s, _) ← takeAll level args default
  let s ← s.settle
  match s.given.file with
  | some file => return (file, s.given)
  | none => throw .noFile

/-- What is given behind a command, with the settings that are named in front of it unless others
are named behind it. -/
def withTop (g top : Given) : Given :=
  { g with config := g.config.or top.config }

end CommandLine

open CommandLine

/-- Reads a command line without the name of the program. -/
def Invocation.ofArguments (args : List String) : Except UsageError Invocation := do
  let (s, found) ← takeAll .top args default
  match found with
  | some (.run, rest) =>
    let (file, given) ← behind .run rest
    return .run file (withTop given (← s.settle).given)
  | some (.audit, rest) =>
    let (file, given) ← behind .audit rest
    return .audit file (withTop given (← s.settle).given)
  | some (.help, rest) => throw (afterHelp rest)
  | none =>
    let s ← s.settle
    throw (if s.given.config.isSome then .noCommand else .nothing)

end CapabilityGate
