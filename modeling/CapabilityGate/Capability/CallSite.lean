import CapabilityGate.Capability.TypeName

/-!
# Call sites

A call site is a place of a program that names an item: the type or module that holds the item,
the item's own name, how it is written, and where.

## Main definitions

* `CallKind`: how an item is named.
* `CallSite`: a place that names one.
* `CallSite.callee`: the item itself, as a path.
-/

namespace CapabilityGate

/-- How a program names an item. -/
inductive CallKind where
  /-- The callee of a call is a path, as in `Type::method(..)`. -/
  | path
  /-- A method call on a receiver whose type is known. -/
  | method
  /-- A path stands where a value is expected, as in `let f = std::fs::remove_file;`. -/
  | reference
  /-- A path stands among the tokens of a macro that is no list of expressions. -/
  | macroBody
  deriving Repr, DecidableEq, Inhabited

/-- A place that names the item `method` of `container`. -/
structure CallSite where
  /-- The type or module that holds the item. -/
  container : TypeName
  /-- The item's name. -/
  method : String
  /-- How the item is named. -/
  kind : CallKind
  /-- The line, counted from one. -/
  line : Nat
  /-- The column in characters, counted from one. -/
  column : Nat
  deriving Repr, DecidableEq, Inhabited

namespace CallSite

/-- The item that a call site names, as one path. -/
def callee (s : CallSite) : TypeName :=
  TypeName.ofPath (s.container.path ++ "::" ++ s.method)

/-- The text of a call site: its container, its item and where it stands. -/
def text (s : CallSite) : String :=
  s.container.text ++ "::" ++ s.method ++ " at " ++ toString s.line ++ ":" ++ toString s.column

end CallSite

end CapabilityGate
