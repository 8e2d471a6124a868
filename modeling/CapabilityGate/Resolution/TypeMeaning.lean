import CapabilityGate.Resolution.Lookup

/-!
# What a written type means

A type that is a path means the first candidate of that path, with its arguments resolved in the
same way. References, pointers and brackets are looked through, and any other type is named by
its own text.

## Main definitions

* `Names.typeMeaning`: the meaning of a type.
* `Names.routeOf`: the route that a path spells.
* `Names.withAliases`: the names of a program with its names for types.
-/

namespace CapabilityGate

open Program

namespace Names

mutual

/-- The **meaning** of a type that is written in a module, where `Self` stands for `owner`. -/
def typeMeaning (n : Names) (module : List String) (owner : Option TypeName) : Ty → TypeName
  | .path (.mk _ segments) =>
    match n.candidates module (n.stepsOf module owner segments) owner with
    | route :: _ => route.type
    | [] => .ofPath ""
  | .wrapped inner => n.typeMeaning module owner inner
  | .other text _ => .ofPath text

/-- The steps that path segments spell. Only arguments in angle brackets count. -/
def stepsOf (n : Names) (module : List String) (owner : Option TypeName) :
    List Segment → List Step
  | [] => []
  | .mk word style args :: rest =>
    ⟨word.text, if style = .angle then n.argumentsOf module owner args else []⟩ ::
      n.stepsOf module owner rest

/-- The meanings of those generic arguments that are types. -/
def argumentsOf (n : Names) (module : List String) (owner : Option TypeName) :
    List Part → List TypeName
  | [] => []
  | .type t :: rest => n.typeMeaning module owner t :: n.argumentsOf module owner rest
  | _ :: rest => n.argumentsOf module owner rest

end

/-- The route that a path spells. -/
def routeOf (n : Names) (module : List String) (owner : Option TypeName) (p : Path) : Route :=
  n.stepsOf module owner p.segments

/-- Adds a name for a type as an import of what the type means. -/
def addAlias (n : Names) (d : Declaration) : Names :=
  match d.what with
  | .typeAlias name type =>
    n.update d.module (.addImport name (.ofType (n.typeMeaning d.module none type)))
  | _ => n

/-- The names of a program, with its names for types added one after another. -/
def ofProgram (p : SourceFile) : Names :=
  p.declarations.foldl addAlias (.ofDeclarations p.declarations)

end Names

end CapabilityGate
