import CapabilityGate.Files.Tree
import CapabilityGate.Report.Fault

/-!
# Libraries

A program is linked with the libraries that every program is linked with, and with those allowed
ones that it refers to. What it refers to beyond them is left to the compiler.

## Main definitions

* `Library`: a library that a program is linked with.
* `AllowList.validate`: whether a list of allowed libraries makes sense.
* `AllowList.libraries`: the libraries of a program.
-/

namespace CapabilityGate

/-- A library that a program is linked with. -/
structure Library where
  /-- Its name. -/
  name : String
  /-- Its file. -/
  path : String
  deriving Repr, DecidableEq

/-- Whether a text is the name of a crate: ASCII letters, digits and underscores, without a digit
in front. -/
def isCrateName (s : String) : Bool :=
  match s.toList with
  | [] => false
  | c :: rest =>
    (c.isAlpha || c == '_') && rest.all fun c => c.isAlphanum || c == '_'

namespace AllowList

/-- Accepts a list of libraries in which every name is one, and every library that all programs
are linked with has a file. -/
def validate (a : AllowList) : Except Fault Unit :=
  match a.crates.find? fun (name, _) => !isCrateName name with
  | some (name, _) => .error (.crateName name)
  | none =>
    match a.platform.find? fun name => (a.crates.lookup name).isNone with
    | some name => .error (.platformUnknown name)
    | none => .ok ()

/-- The names of what a program is to be linked with, when it refers to `namespaces`. -/
def names (a : AllowList) (namespaces : List String) : List String :=
  a.platform ++ namespaces.filter fun name => !a.platform.contains name

/-- The library of a name, if it is an allowed one. Its file has to be there. -/
def library (a : AllowList) (f : Files) (name : String) : Except Fault (Option Library) :=
  match a.crates.lookup name with
  | none => .ok none
  | some path =>
    if f.isFile path then .ok (some ⟨name, path⟩) else .error (.libraryMissing name path)

/-- The **libraries** of a program that refers to `namespaces`, which are ordered and all
different. -/
def libraries (a : AllowList) (f : Files) (namespaces : List String) :
    Except Fault (List Library) :=
  ((a.names namespaces).mapM (a.library f)).map fun found => found.filterMap id

end AllowList

end CapabilityGate
