import CapabilityGate.Program.Tree

/-!
# Imports of a `use` item

A `use` item is a tree of names. Read from its root to each of its leaves, it is a list of
imports: a target under a name, or everything below a target.

## Main definitions

* `Import`: one leaf of a `use` item.
* `UseTree.imports`: the leaves of a tree, from left to right.
-/

namespace CapabilityGate.Program

/-- What one leaf of a `use` item brings into a module. Targets are lists of names that start at
the root of the tree. -/
inductive Import where
  /-- The item `target`, under the name `alias_`. -/
  | name (alias_ : String) (target : List String)
  /-- All items of the module `target`. -/
  | glob (target : List String)
  deriving Repr, DecidableEq

mutual
/-- The **imports** of a tree that stands below the names `above`. A leaf `self` stands for what
is above it; under its own name it imports that by its last name, and nothing when there is
nothing above. -/
def UseTree.imports (above : List String) : UseTree → List Import
  | .name ident =>
    if ident.text == "self" then
      match above.getLast? with
      | some last => [.name last above]
      | none => []
    else [.name ident.text (above ++ [ident.text])]
  | .rename ident alias_ =>
    [.name alias_.text (if ident.text == "self" then above else above ++ [ident.text])]
  | .glob => [.glob above]
  | .under ident tree => tree.imports (above ++ [ident.text])
  | .group trees => importsOfTrees above trees

/-- The imports of several trees that stand below the same names. -/
def importsOfTrees (above : List String) : List UseTree → List Import
  | [] => []
  | tree :: rest => tree.imports above ++ importsOfTrees above rest
end

end CapabilityGate.Program
