import CapabilityGate.Program.Declaration
import CapabilityGate.Program.Import
import CapabilityGate.Resolution.Builtin

/-!
# The names of a program

What each module of a program declares: imports, globs, items and modules, all gathered from the
declarations of the program.

## Main definitions

* `Scope`: the names of one module.
* `Names`: the scopes of all modules.
* `Names.ofDeclarations`: the names that a program declares, those for types apart.
* `Names.isCrateRoot`: whether a root can only be that of an external crate.
* `Names.isMissing`: whether a path into the program ends before it reaches a declaration.
-/

namespace CapabilityGate

open Program

/-- The names that one module declares. Imports and items in the bodies of its functions count
too. -/
structure Scope where
  /-- The imports, each with its target, the latest first. -/
  imports : List (String × Route)
  /-- The targets of the glob imports, in order. -/
  globs : List Route
  /-- The items. -/
  items : List String
  /-- The modules. -/
  modules : List String
  deriving Inhabited

/-- The names that a program declares. -/
structure Names where
  /-- The scope of each module, which is given by the names on the way to it. -/
  scopes : List (List String × Scope)
  /-- All names of items and modules, wherever they stand. -/
  locals : List String
  deriving Inhabited

namespace Scope

/-- A scope without names. -/
def empty : Scope := ⟨[], [], [], []⟩

/-- The target of an import; of several under one name the last one counts. -/
def import? (s : Scope) (name : String) : Option Route :=
  s.imports.lookup name

/-- Adds an import. -/
def addImport (name : String) (target : Route) (s : Scope) : Scope :=
  { s with imports := (name, target) :: s.imports }

/-- Adds a glob import. -/
def addGlob (target : Route) (s : Scope) : Scope :=
  { s with globs := s.globs ++ [target] }

/-- Adds an item. -/
def addItem (name : String) (s : Scope) : Scope :=
  { s with items := name :: s.items }

/-- Adds a module. -/
def addModule (name : String) (s : Scope) : Scope :=
  { s with modules := name :: s.modules }

/-- Whether an import, an item or a module has the name. -/
def declares (s : Scope) (name : String) : Bool :=
  (s.import? name).isSome || s.items.contains name || s.modules.contains name

end Scope

namespace Names

/-- The names of a program that declares nothing. -/
def empty : Names := ⟨[([], .empty)], []⟩

/-- The scope of a module. -/
def scope? (n : Names) (module : List String) : Option Scope :=
  n.scopes.lookup module

/-- Changes the scope of a module, which is made if there is none. -/
def update (module : List String) (f : Scope → Scope) (n : Names) : Names :=
  if (n.scope? module).isSome then
    { n with scopes := n.scopes.map fun (m, s) => (m, if m == module then f s else s) }
  else { n with scopes := n.scopes ++ [(module, f .empty)] }

/-- Adds a name to those of items and modules. -/
def addLocal (name : String) (n : Names) : Names :=
  { n with locals := name :: n.locals }

/-- Adds an import, unless it has no target or is for nothing but its side effects. -/
def addImport (module : List String) (name : String) (target : List String) (n : Names) : Names :=
  if name == "_" || target.isEmpty then n
  else n.update module (.addImport name (.ofNames target))

/-- Adds what one leaf of a `use` item imports. -/
def addLeaf (module : List String) (n : Names) : Import → Names
  | .name name target => n.addImport module name target
  | .glob target => n.update module (.addGlob (.ofNames target))

/-- Adds a declaration. Names for types are left for later, since they may refer to all others. -/
def declare (n : Names) (d : Declaration) : Names :=
  match d.what with
  | .item name => (n.addLocal name).update d.module (.addItem name)
  | .module name =>
    ((n.addLocal name).update d.module (.addModule name)).update (d.module ++ [name]) id
  | .use _ tree => (tree.imports []).foldl (addLeaf d.module) n
  | .crate name (some alias_) => n.addImport d.module alias_ [name]
  | .crate _ none => n
  | .typeAlias _ _ => n

/-- The names that a program declares. -/
def ofDeclarations (ds : List Declaration) : Names :=
  ds.foldl declare .empty

/-- Whether a module knows a name: from the prelude or from its own declarations. -/
def knows (n : Names) (module : List String) (name : String) : Bool :=
  (prelude? name).isSome || (n.scope? module).any (·.declares name)

/-- Whether a name starts with a lower case letter of ASCII. -/
def startsLower (name : String) : Bool :=
  name.toList.head?.any Char.isLower

/-- Whether the first name of a path can only be an **external crate**: it looks like the name
of one, and the program declares nothing of that name. -/
def isCrateRoot (n : Names) (name : String) : Bool :=
  !pathRoots.contains name && !primitives.contains name && !n.locals.contains name &&
    (startsLower name || name.toList.head? == some '_')

/-- The first names of the targets of a leaf of a `use` item. -/
def rootOfLeaf : Import → List String
  | .name name target => if name == "_" then [] else target.take 1
  | .glob target => target.take 1

/-- The roots that a declaration refers to. -/
def rootsOf (d : Declaration) : List String :=
  match d.what with
  | .use _ tree => (tree.imports []).flatMap rootOfLeaf
  | .crate name _ => [name]
  | _ => []

/-- Whether the names lead from a module to nothing that the program declares: one of them is
declared neither as a module nor, at the end of the way, as an item. -/
def isMissing (n : Names) (module : List String) : List String → Bool
  | [] => false
  | name :: rest =>
    match n.scope? module with
    | none => true
    | some s =>
      if s.items.contains name then false
      else if s.modules.contains name then n.isMissing (module ++ [name]) rest
      else true

end Names

end CapabilityGate
