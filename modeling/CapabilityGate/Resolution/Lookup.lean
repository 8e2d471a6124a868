import CapabilityGate.Resolution.Names

/-!
# Looking up a path

A path that is written in a module may mean several things when glob imports are in scope. Looking
it up yields its candidates, the likeliest first. Imports may lead in circles, so each lookup of
a name is paid for from a budget; when it is used up, a path is taken to lead into the program
as it is written.

## Main definitions

* `Lookup`: the two ways of looking up that call each other.
* `Names.lookup`: the ways of looking up, as deep as a budget can pay for.
* `Names.candidatesWithin`, `Names.candidates`: the candidates of a path.
-/

namespace CapabilityGate

open Route

/-- A computation that is paid for from a budget. -/
abbrev Paid (α : Type) : Type := StateM Nat α

/-- Pays for one lookup, and says whether the budget had something left. -/
def Paid.spend : Paid Bool :=
  fun left => (0 < left, left - 1)

/-- The ways of looking up a route. -/
structure Lookup where
  /-- The candidates of a route that is written in a module: with the type that `Self` stands
  for, and the import to pass over, since it is the target of this one that is looked up. -/
  written (module : List String) (route : Route) (owner : Option TypeName)
    (skip : Option String) : Paid (List Route)
  /-- The candidates of a route below a module, or none if the module has no such name. -/
  member (module : List String) (route : Route) : Paid (Option (List Route))

namespace Names

/-- Goes up one module for each leading `super`. -/
def ascend : (module : List String) → Route → List String × Route
  | module, [] => (module, [])
  | module, step :: rest =>
    if step.name == "super" then ascend module.dropLast rest else (module, step :: rest)

/-- The candidates of a route below a module. Names that the module does not declare are kept
as they are. -/
def below (l : Lookup) (module : List String) (route : Route) : Paid (List Route) := do
  let (module, route) := ascend module route
  if route.isEmpty then return [inModule module []]
  return (← l.member module route).getD [inModule module route]

/-- The candidates of a route whose first step is the import `name` with the given target. -/
def throughImport (l : Lookup) (module : List String) (name : String) (target route : Route) :
    Paid (List Route) := do
  return (← l.written module target none (some name)).map fun r => substitute r route

/-- The module of the program that a resolved route names, if it names one. -/
def module? (n : Names) : Route → Option (List String)
  | [] => none
  | root :: rest =>
    let module := rest.map Step.name
    if root.name == "crate" && (n.scope? module).isSome then some module else none

/-- The candidates of a route through one resolved glob. A module of the program offers only
the names that it declares. -/
def throughGlob (n : Names) (l : Lookup) (route above : Route) : Paid (List Route) :=
  match n.module? above with
  | some module => return (← l.member module route).getD []
  | none => return [above ++ route]

/-- The candidates of a route through the glob imports of a module. -/
def throughGlobs (n : Names) (l : Lookup) (module : List String) (route : Route) :
    Paid (List Route) :=
  match n.scope? module with
  | none => return []
  | some s => do
    let found ← s.globs.mapM fun glob => do
      let aboves ← l.written module glob none none
      return (← aboves.mapM (n.throughGlob l route)).flatten
    return found.flatten

/-- The route as it is written, with the standard root for `core` and `alloc`. -/
def literal : Route → Route
  | [] => []
  | first :: rest =>
    if first.name == "core" || first.name == "alloc" then { first with name := "std" } :: rest
    else first :: rest

/-- The candidates of a route whose first step no module declares. A path of several names whose
first one is in lower case most likely starts at a crate, so it is read as written first; all
else is looked for in the glob imports first. -/
def undeclared (n : Names) (l : Lookup) (module : List String) (first : Step) (rest : Route) :
    Paid (List Route) := do
  let found ←
    if primitives.contains first.name || pathRoots.contains first.name then pure []
    else n.throughGlobs l module (first :: rest)
  let asWritten := literal (first :: rest)
  if !rest.isEmpty && startsLower first.name then return asWritten :: found
  return found ++ [asWritten]

/-- The candidates of a route whose first step is none of the words for modules around it. -/
def byName (n : Names) (l : Lookup) (module : List String) (first : Step) (rest : Route)
    (skip : Option String) : Paid (List Route) := do
  let scope := (n.scope? module).getD .empty
  let imported := if skip = some first.name then none else scope.import? first.name
  match imported with
  | some target => throughImport l module first.name target (first :: rest)
  | none =>
    if scope.modules.contains first.name then below l (module ++ [first.name]) rest
    else if scope.items.contains first.name then return [inModule module (first :: rest)]
    else
      match prelude? first.name with
      | some path => return [substitute (ofPath path) (first :: rest)]
      | none => n.undeclared l module first rest

/-- Looks up a route that is written in a module. -/
def writtenRule (n : Names) (l : Lookup) (module : List String) (route : Route)
    (owner : Option TypeName) (skip : Option String) : Paid (List Route) :=
  match route with
  | [] => return []
  | first :: rest => do
    if !(← Paid.spend) then return [inModule module (first :: rest)]
    if first.name == "crate" then below l [] rest
    else if first.name == "self" then below l module rest
    else if first.name == "super" then below l module.dropLast rest
    else
      match (if first.name == "Self" then owner else none) with
      | some t => return [substitute (ofType t) (first :: rest)]
      | none => n.byName l module first rest skip

/-- Looks up a route below a module. -/
def memberRule (n : Names) (l : Lookup) (module : List String) (route : Route) :
    Paid (Option (List Route)) :=
  match route with
  | [] => return none
  | first :: rest => do
    if !(← Paid.spend) then return some [inModule module (first :: rest)]
    match n.scope? module with
    | none => return none
    | some scope =>
      match scope.import? first.name with
      | some target => return some (← throughImport l module first.name target (first :: rest))
      | none =>
        if scope.modules.contains first.name then
          return some (← below l (module ++ [first.name]) rest)
        else if scope.items.contains first.name then
          return some [inModule module (first :: rest)]
        else
          let found ← n.throughGlobs l module (first :: rest)
          return if found.isEmpty then none else some found

/-- The ways of looking up in which lookups call one another at most `depth` deep. Each of them
pays, so a budget of `depth` is used up before the depth is. -/
def lookup (n : Names) : (depth : Nat) → Lookup
  | 0 => {
    written := fun module route _ _ => return if route.isEmpty then [] else [inModule module route]
    member := fun module route =>
      return if route.isEmpty then none else some [inModule module route] }
  | depth + 1 => {
    written := fun module route owner skip =>
      n.writtenRule (n.lookup depth) module route owner skip
    member := fun module route => n.memberRule (n.lookup depth) module route }

/-- How many lookups one path may take. -/
def lookupBudget : Nat := 512

/-- The candidates of a route that is written in a module, found with the given budget, and
what is left of it. -/
def candidatesWithin (n : Names) (budget : Nat) (module : List String) (route : Route)
    (owner : Option TypeName) : List Route × Nat :=
  (n.lookup budget).written module route owner none budget

/-- The **candidates** of a route that is written in a module, the likeliest first. -/
def candidates (n : Names) (module : List String) (route : Route) (owner : Option TypeName) :
    List Route :=
  (n.candidatesWithin lookupBudget module route owner).1

end Names

end CapabilityGate
