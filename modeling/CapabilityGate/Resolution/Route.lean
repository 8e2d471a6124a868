import CapabilityGate.Capability.TypeName

/-!
# Routes

A route is a path on the way through name resolution: its names in order, each with the generic
arguments that are written at it, already resolved.

## Main definitions

* `Step`, `Route`: one name with its arguments, and a path of them.
* `Route.type`: the type that a route names.
* `Route.split?`: a route as a container and an item in it.
* `Route.substitute`: a target in place of the first step.
* `Route.inModule`: a route below a module of the program.
-/

namespace CapabilityGate

/-- One name of a path, with the generic arguments that are written at it. -/
structure Step where
  /-- The name. -/
  name : String
  /-- The arguments. -/
  args : List TypeName
  deriving Repr, DecidableEq, Inhabited

/-- A path as a list of steps. -/
abbrev Route : Type := List Step

namespace Route

/-- A step without arguments. -/
def plainStep (name : String) : Step := ⟨name, []⟩

/-- The route along plain names. -/
def ofNames (names : List String) : Route :=
  names.map plainStep

/-- The route that the text of a path spells. -/
def ofPath (path : String) : Route :=
  ofNames (splitPath (normalPath path))

/-- A route with the arguments of its last step replaced. -/
def withArgs (args : List TypeName) : Route → Route
  | [] => []
  | [step] => [⟨step.name, args⟩]
  | step :: rest => step :: withArgs args rest

/-- The route to a type. -/
def ofType (t : TypeName) : Route :=
  (ofPath t.path).withArgs t.args

/-- The text of a route without arguments. -/
def path (r : Route) : String :=
  joinPath (r.map Step.name)

/-- The arguments of the last step. -/
def lastArgs (r : Route) : List TypeName :=
  (r.getLast?.map Step.args).getD []

/-- The type that a route names. -/
def type (r : Route) : TypeName :=
  .apply r.path r.lastArgs

/-- A route as the item `method` of a container; a single step has no container. -/
def split? (r : Route) : Option (TypeName × String) :=
  match r.reverse with
  | method :: owner :: above =>
    let container : Route := (owner :: above).reverse
    some (.apply container.path owner.args, method.name)
  | _ => none

/-- The route `written` with `target` **in place of its first step**. Arguments written at that
step replace those at the end of the target. -/
def substitute (target written : Route) : Route :=
  match written with
  | [] => target
  | first :: rest =>
    (if first.args.isEmpty then target else target.withArgs first.args) ++ rest

/-- The route to what `rest` names in a module of the program. -/
def inModule (module : List String) (rest : Route) : Route :=
  plainStep "crate" :: ofNames module ++ rest

end Route

end CapabilityGate
