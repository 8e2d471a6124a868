import CapabilityGate.Program.Tree

/-!
# Declarations of a program

The first walk over a program collects what its modules declare: names, modules, imports,
external crates and names for types. Items in the body of a function belong to the module
around the function. What a macro is given declares nothing, and neither does a member of a
trait, an implementation or a foreign block, though items in the body of a member do.

## Main definitions

* `Declaration`: something that a module declares.
* `SourceFile.declarations`: all declarations of a program, in the order in which they stand.
-/

namespace CapabilityGate.Program

/-- What a declaration declares. -/
inductive Declares where
  /-- An item with a name. -/
  | item (name : String)
  /-- A module. -/
  | module (name : String)
  /-- What a `use` item imports. -/
  | use (global : Bool) (tree : UseTree)
  /-- An external crate, perhaps under another name. -/
  | crate (name : String) (alias_ : Option String)
  /-- A name for a type. -/
  | typeAlias (name : String) (type : Ty)
  deriving Inhabited

/-- A declaration, and the module that it stands in as the names on the way to it. -/
structure Declaration where
  /-- The names of the module and of those around it, outermost first. -/
  module : List String
  /-- What is declared. -/
  what : Declares
  deriving Inhabited

/-- Whether the walk for declarations enters what an item of this kind contains. -/
def Declared.isEntered : Declared → Bool
  | .structure_ | .enumeration | .union => false
  | .function | .constant | .static | .trait => true

namespace Declaration

mutual

/-- The declarations in the arguments of a path. -/
def inPath (module : List String) : Path → List Declaration
  | .mk _ segments => inSegments module segments

/-- The declarations in the arguments of path segments. -/
def inSegments (module : List String) : List Segment → List Declaration
  | [] => []
  | .mk _ _ args :: rest => inParts module args ++ inSegments module rest

/-- The declarations in a type. -/
def inType (module : List String) : Ty → List Declaration
  | .path path => inPath module path
  | .wrapped inner => inType module inner
  | .other _ parts => inParts module parts

/-- The declarations in an expression. -/
def inExpr (module : List String) : Expr → List Declaration
  | .path _ path => inPath module path
  | .qualified _ owner _ path => inType module owner ++ inPath module path
  | .call callee args => inExpr module callee ++ inExprs module args
  | .method receiver _ _ turbofish args =>
    inExpr module receiver ++ inParts module turbofish ++ inExprs module args
  | .paren inner => inExpr module inner
  | .reference inner => inExpr module inner
  | .tried inner => inExpr module inner
  | .construct owner path fields =>
    inParts module owner ++ inPath module path ++ inParts module fields
  | .invoke _ => []
  | .attributed attributes inner => inParts module attributes ++ inExpr module inner
  | .compound _ parts => inParts module parts

/-- The declarations in several expressions. -/
def inExprs (module : List String) : List Expr → List Declaration
  | [] => []
  | e :: rest => inExpr module e ++ inExprs module rest

/-- The declarations in a pattern. -/
def inPattern (module : List String) : Pat → List Declaration
  | .bind _ parts => inParts module parts
  | .typed attributes pattern type =>
    inParts module attributes ++ inPattern module pattern ++ inType module type
  | .compound parts => inParts module parts

/-- The declarations that an item makes and contains. -/
def inItem (module : List String) : Item → List Declaration
  | .use _ global tree => [⟨module, .use global tree⟩]
  | .externCrate _ name alias_ => [⟨module, .crate name.text (alias_.map Word.text)⟩]
  | .typeAlias _ name type => [⟨module, .typeAlias name.text type⟩]
  | .declaration kind name parts =>
    ⟨module, .item name.text⟩ :: if kind.isEntered then inParts module parts else []
  | .module name parts =>
    ⟨module, .module name.text⟩ :: inParts (module ++ [name.text]) parts
  | .implementation parts selfType members =>
    inParts module parts ++ inType module selfType ++ inParts module members
  | .other parts => inParts module parts

/-- The declarations in a part of a construct. -/
def inPart (module : List String) : Part → List Declaration
  | .type type => inType module type
  | .expr expr => inExpr module expr
  | .pattern pattern => inPattern module pattern
  | .item item => inItem module item
  | .path path => inPath module path
  | .invoke _ => []
  | .binding attributes pattern values =>
    inParts module attributes ++ inPattern module pattern ++ inExprs module values
  | .group parts => inParts module parts

/-- The declarations in several parts. -/
def inParts (module : List String) : List Part → List Declaration
  | [] => []
  | part :: rest => inPart module part ++ inParts module rest

end

end Declaration

/-- The **declarations** of a program, in the order in which they stand in it. -/
def SourceFile.declarations (p : SourceFile) : List Declaration :=
  Declaration.inParts [] p.attributes ++ p.items.flatMap (Declaration.inItem [])

end CapabilityGate.Program
