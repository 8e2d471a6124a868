import CapabilityGate.Program.Tree

/-!
# Mentions in a program

The second walk over a program collects, in order, every place that names or types something: the
paths that are called or stand as values, the method calls, the macros that are nothing but
tokens, and the names that are bound with a type or to a value. What each of them means is not
looked at here; every mention carries the module and the implementation around it.

## Main definitions

* `Place`: where in a program a mention stands.
* `Mention`: what is mentioned.
* `SourceFile.mentions`: all mentions of a program, in the order in which they are walked.
-/

namespace CapabilityGate.Program

/-- Where in a program something stands: in which module, and in the implementation of which
type, which is written in a module too. -/
structure Place where
  /-- The names of the module and of those around it, outermost first. -/
  module : List String
  /-- The type of the innermost implementation, and the module that this stands in. -/
  owner : Option (List String × Ty)
  deriving Inhabited

/-- Something that a program mentions. -/
inductive Mention where
  /-- A path, which is called or stands as a value. -/
  | path (called : Bool) (at_ : Position) (path : Path)
  /-- A path below a type, which is called or stands as a value. -/
  | qualified (called : Bool) (at_ : Position) (owner : Ty) (position : Nat) (path : Path)
  /-- The method `name` of a value. -/
  | method (receiver : Expr) (name : String) (at_ : Position)
  /-- The tokens of a macro that reads as nothing else. -/
  | tokens (tokens : List Token)
  /-- A name that is bound with a type. -/
  | typed (name : String) (type : Ty)
  /-- A name that is bound to a value. -/
  | bound (name : String) (value : Expr)

namespace Mentions

/-- The name that a pattern binds, if that is all it does. -/
def binder? : Pat → Option String
  | .bind name _ => some name.text
  | _ => none

/-- What a pattern with a type binds with that type. -/
def ofTyped (place : Place) (pattern : Pat) (type : Ty) : List (Place × Mention) :=
  match binder? pattern with
  | some name => [(place, .typed name type)]
  | none => []

/-- What a `let` statement binds to its initialiser. -/
def ofBinding (place : Place) (pattern : Pat) (values : List Expr) : List (Place × Mention) :=
  match binder? pattern, values with
  | some name, value :: _ => [(place, .bound name value)]
  | _, _ => []

/-- Whether the attributes of an expression are passed over. -/
def hidesAttributes : Expr → Bool
  | .path .. | .qualified .. | .call .. | .method .. => true
  | _ => false

mutual

/-- The mentions in the arguments of a path that is neither called nor a value. -/
def inPath (place : Place) : Path → List (Place × Mention)
  | .mk _ segments => inSegments place segments

/-- The mentions in the arguments of path segments. -/
def inSegments (place : Place) : List Segment → List (Place × Mention)
  | [] => []
  | .mk _ _ args :: rest => inParts place args ++ inSegments place rest

/-- The mentions in a type. -/
def inType (place : Place) : Ty → List (Place × Mention)
  | .path path => inPath place path
  | .wrapped inner => inType place inner
  | .other _ parts => inParts place parts

/-- The mentions in an expression, which may be `called`. -/
def inExpr (place : Place) (called : Bool) : Expr → List (Place × Mention)
  | .path p path => [(place, .path called p path)]
  | .qualified p owner position path => [(place, .qualified called p owner position path)]
  | .call callee args => inExpr place true callee ++ inExprs place args
  | .method receiver name p _ args =>
    (place, .method receiver name.text p) :: (inExpr place false receiver ++ inExprs place args)
  | .paren inner => inExpr place false inner
  | .reference inner => inExpr place false inner
  | .tried inner => inExpr place false inner
  | .construct owner path fields =>
    inParts place owner ++ inPath place path ++ inParts place fields
  | .invoke invocation => inInvocation place invocation
  | .attributed attributes inner =>
    if hidesAttributes inner then inExpr place called inner
    else inParts place attributes ++ inExpr place called inner
  | .compound _ parts => inParts place parts

/-- The mentions in several expressions. -/
def inExprs (place : Place) : List Expr → List (Place × Mention)
  | [] => []
  | e :: rest => inExpr place false e ++ inExprs place rest

/-- The mentions in a pattern. -/
def inPattern (place : Place) : Pat → List (Place × Mention)
  | .bind _ parts => inParts place parts
  | .typed attributes pattern type =>
    ofTyped place pattern type ++ inParts place attributes ++ inPattern place pattern ++
      inType place type
  | .compound parts => inParts place parts

/-- The mentions in an item. -/
def inItem (place : Place) : Item → List (Place × Mention)
  | .use attributes _ _ => inParts place attributes
  | .externCrate attributes _ _ => inParts place attributes
  | .typeAlias parts _ type => inParts place parts ++ inType place type
  | .declaration _ _ parts => inParts place parts
  | .module name parts => inParts ⟨place.module ++ [name.text], place.owner⟩ parts
  | .implementation parts selfType members =>
    let place : Place := ⟨place.module, some (place.module, selfType)⟩
    inParts place parts ++ inType place selfType ++ inParts place members
  | .other parts => inParts place parts

/-- The mentions in a use of a macro. -/
def inInvocation (place : Place) : Invocation → List (Place × Mention)
  | .mk _ _ tokens reading => inReading place tokens reading

/-- The mentions in the tokens of a macro, by the way they read. -/
def inReading (place : Place) (tokens : List Token) : Reading → List (Place × Mention)
  | .list members => inExprs place members
  | .raw => [(place, .tokens tokens)]

/-- The mentions in a part of a construct. -/
def inPart (place : Place) : Part → List (Place × Mention)
  | .type type => inType place type
  | .expr expr => inExpr place false expr
  | .pattern pattern => inPattern place pattern
  | .item item => inItem place item
  | .path path => inPath place path
  | .invoke invocation => inInvocation place invocation
  | .binding attributes pattern values =>
    ofBinding place pattern values ++ inParts place attributes ++ inPattern place pattern ++
      inExprs place values
  | .group parts => inParts place parts

/-- The mentions in several parts. -/
def inParts (place : Place) : List Part → List (Place × Mention)
  | [] => []
  | part :: rest => inPart place part ++ inParts place rest

end

end Mentions

/-- The **mentions** of a program, in the order in which they are walked. -/
def SourceFile.mentions (p : SourceFile) : List (Place × Mention) :=
  let place : Place := ⟨[], none⟩
  Mentions.inParts place p.attributes ++ p.items.flatMap (Mentions.inItem place)

end CapabilityGate.Program
