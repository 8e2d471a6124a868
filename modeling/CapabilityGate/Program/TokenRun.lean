import CapabilityGate.Program.Token

/-!
# Paths among raw tokens

The tokens of a macro that reads as no list of expressions still spell paths: runs of names
joined by `::`. Every group of tokens is searched by itself, at any depth. A run that starts at a
parameter of the macro is left out, for what it stands for is unknown, but `$crate` reads as
`crate`.

## Main definitions

* `Run`: the run that a scan is at.
* `tokenPaths`: the runs of a list of tokens, in order, each with the place of its first name.
-/

namespace CapabilityGate.Program

/-- How far a scan has come behind the last name. -/
inductive Separator where
  /-- Nothing stands behind it. -/
  | nothing
  /-- One colon stands behind it, joined to the next mark. -/
  | half
  /-- Two colons stand behind it. -/
  | full
  deriving Repr, DecidableEq

/-- The state of a scan: the run that it is in, and the runs before it, last first. -/
structure Run where
  /-- The runs that are complete, last first. -/
  done : List (List String × Position)
  /-- The names of the run so far, last first. -/
  names : List String
  /-- Where the first name of the run stands, if it has a name. -/
  start : Option Position
  /-- What stands behind the last name. -/
  separator : Separator
  /-- Whether the sign of a macro parameter was just read. -/
  parameter : Bool
  /-- Whether the run starts at a macro parameter. -/
  hidden : Bool

namespace Run

/-- The scan at its start. -/
def empty : Run := ⟨[], [], none, .nothing, false, false⟩

/-- Ends the run, and keeps it unless it is hidden. -/
def flush (r : Run) : Run :=
  match r.start with
  | some p =>
    if r.hidden || r.names.isEmpty then { empty with done := r.done }
    else { empty with done := (r.names.reverse, p) :: r.done }
  | none => { empty with done := r.done }

/-- Starts a run with a name. -/
def begin (r : Run) (name : String) (p : Position) (hidden : Bool) : Run :=
  { r.flush with names := [name], start := some p, hidden := hidden }

/-- Meets a name: it goes on with the run behind two colons, and starts a run otherwise. -/
def name (r : Run) (name : String) (p : Position) : Run :=
  if r.parameter then r.begin name p (name != "crate")
  else if r.separator = .full then
    { r with names := name :: r.names, start := r.start.or (some p), separator := .nothing }
  else r.begin name p false

/-- Meets a mark: colons go on with the run, and all other marks end it. -/
def mark (r : Run) (c : Char) (joint : Bool) : Run :=
  if c == ':' then
    match r.separator with
    | .nothing => if joint then { r with separator := .half } else r.flush
    | .half => { r with separator := .full }
    | .full => r.flush
  else if c == '$' then { r.flush with parameter := true }
  else r.flush

mutual
/-- Meets a token. A group ends the run before it and the run at its end. -/
def token (r : Run) : Token → Run
  | .name w p => r.name w.text p
  | .mark c joint _ => r.mark c joint
  | .literal _ _ => r.flush
  | .group _ body _ _ => (tokens r.flush body).flush

/-- Meets several tokens. -/
def tokens (r : Run) : List Token → Run
  | [] => r
  | t :: rest => tokens (token r t) rest
end

end Run

/-- The **paths among tokens**, in order, each with the place of its first name. -/
def tokenPaths (ts : List Token) : List (List String × Position) :=
  (Run.tokens .empty ts).flush.done.reverse

end CapabilityGate.Program
