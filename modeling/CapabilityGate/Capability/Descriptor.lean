import CapabilityGate.Capability.CallSite

/-!
# Capability descriptors

A descriptor names what a program may not use: a type or module, perhaps one instance of a
generic type, perhaps one method of it. Its text is the text of the type, followed by `#` and the
method when there is one.

## Main definitions

* `Descriptor`: a denied type, and perhaps a method.
* `Descriptor.text`, `Descriptor.parse`: its text.
* `instanceOf`: whether a type is an instance of a pattern.
* `Descriptor.covers`: whether a call site falls under a descriptor.
-/

namespace CapabilityGate

open Text

/-- A denied type, narrowed to one of its methods when `method` is given. -/
structure Descriptor where
  /-- The denied type. -/
  target : TypeName
  /-- The only denied method, or none when all are denied. -/
  method : Option String
  deriving Repr, DecidableEq

mutual
/-- Whether `t` is an **instance** of `pattern`: the paths agree, and the pattern either has no
arguments or has as many as `t`, each with the argument of `t` as an instance. -/
def instanceOf : TypeName → TypeName → Bool
  | .mk p [], .mk q _ => p == q
  | .mk p (a :: as), .mk q bs => p == q && instancesOf (a :: as) bs

/-- Whether two lists are of one length and each member of the second is an instance of the
member of the first at its place. -/
def instancesOf : List TypeName → List TypeName → Bool
  | [], [] => true
  | a :: as, b :: bs => instanceOf a b && instancesOf as bs
  | _, _ => false
end

namespace Descriptor

/-- The text of a descriptor. -/
def text (d : Descriptor) : String :=
  match d.method with
  | none => d.target.text
  | some m => d.target.text ++ "#" ++ m

/-- A text cut at its last `#`, when it has one: what stands before and what stands behind. -/
def cutLastHash (s : List Char) : Option (List Char × List Char) :=
  match s.reverse.dropWhile (· != '#') with
  | _ :: before => some (before.reverse, (s.reverse.takeWhile (· != '#')).reverse)
  | [] => none

/-- Reads the text of a descriptor. What follows the last `#` is the method. -/
def parse (s : String) : Except DescriptorError Descriptor :=
  match cutLastHash s.toList with
  | none => (TypeName.parse s).map fun t => ⟨t, none⟩
  | some (before, behind) =>
    let method := trimBlanks (String.ofList behind)
    if isIdentifier method.toList then
      (TypeName.parse (String.ofList before)).map fun t => ⟨t, some method⟩
    else .error (.badMethod method s)

/-- Whether a resolved type falls under the descriptor's type. -/
def coversType (d : Descriptor) (t : TypeName) : Bool :=
  instanceOf d.target t

/-- Whether the type of `d` and a type that a call site of kind `kind` names agree. The tokens of
a macro carry no generic arguments, so there the paths decide. -/
def agrees (d : Descriptor) (kind : CallKind) (t : TypeName) : Bool :=
  match kind with
  | .macroBody => d.target.path == t.path
  | _ => d.coversType t

/-- Whether the call site falls under the descriptor. It does so as a member of the denied type,
if its method is the denied one; and as a path that names the denied type itself: always for a
descriptor of a whole type, and for one of a method when the path is a value or stands in a
macro, where the call that may follow is out of sight. -/
def covers (d : Descriptor) (s : CallSite) : Bool :=
  (d.agrees s.kind s.container && d.method.all (· == s.method)) ||
    match s.kind with
    | .method => false
    | .path => d.agrees s.kind s.callee && d.method.isNone
    | .reference | .macroBody => d.agrees s.kind s.callee

end Descriptor

end CapabilityGate
