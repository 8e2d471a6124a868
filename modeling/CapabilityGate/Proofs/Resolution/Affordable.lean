import CapabilityGate.Proofs.Resolution.Budget
import CapabilityGate.Resolution.Model

/-!
# Lookups that their budget can pay for

The lookup of a path is cut short when its budget is used up. As long as something of it is left at
the end, nothing was cut short, and a larger budget would change nothing. What a program looks up
is known from the program: the types that it names types by, and for each of its mentions the
paths and types in it.

## Main definitions

* `Names.affords`: whether the lookup of a route leaves something of its budget.
* `Names.affordsType`, `Names.affordsMention`: the same for all lookups of a type, or of a mention.
* `SourceFile.affordsLookups`: the same for all lookups of a program.

## Main results

* `Names.candidatesWithin_of_affords`: such a lookup finds the same with every larger budget.
-/

namespace CapabilityGate

open Program

namespace Names

/-- Whether looking up a route **leaves something of the budget**. -/
def affords (n : Names) (module : List String) (route : Route) (owner : Option TypeName) : Bool :=
  0 < (n.candidatesWithin lookupBudget module route owner).2

/-- A lookup that leaves something of its budget finds the same **with every larger budget**. -/
theorem candidatesWithin_of_affords {n : Names} {module : List String} {route : Route}
    {owner : Option TypeName} (h : n.affords module route owner = true) (extra : Nat) :
    (n.candidatesWithin (lookupBudget + extra) module route owner).1 =
      n.candidates module route owner := by
  have hextends : Lookup.Extends lookupBudget extra (n.lookup lookupBudget)
      (n.lookup (lookupBudget + extra)) :=
    n.lookup_extends (Nat.le_refl _) (Nat.le_refl _)
  obtain ⟨-, hsame⟩ := hextends.written module route owner none lookupBudget (Nat.le_refl _)
  have hspare : 0 < ((n.lookup lookupBudget).written module route owner none lookupBudget).2 :=
    of_decide_eq_true h
  rw [candidatesWithin, hsame hspare]
  rfl

/-! ### Types -/

mutual

/-- Whether all lookups for the meaning of a type leave something of their budgets. -/
def affordsType (n : Names) (module : List String) (owner : Option TypeName) : Ty → Bool
  | .path (.mk _ segments) =>
    n.affordsSegments module owner segments &&
      n.affords module (n.stepsOf module owner segments) owner
  | .wrapped inner => n.affordsType module owner inner
  | .other _ _ => true

/-- Whether all lookups for the arguments of path segments do. -/
def affordsSegments (n : Names) (module : List String) (owner : Option TypeName) :
    List Segment → Bool
  | [] => true
  | .mk _ style args :: rest =>
    (if style = .angle then n.affordsArguments module owner args else true) &&
      n.affordsSegments module owner rest

/-- Whether all lookups for the generic arguments that are types do. -/
def affordsArguments (n : Names) (module : List String) (owner : Option TypeName) :
    List Part → Bool
  | [] => true
  | .type t :: rest => n.affordsType module owner t && n.affordsArguments module owner rest
  | _ :: rest => n.affordsArguments module owner rest

end

theorem affordsSegments_cons {n : Names} {module : List String} {owner : Option TypeName}
    {word : Word} {style : ArgumentStyle} {args : List Part} {rest : List Segment} :
    n.affordsSegments module owner (.mk word style args :: rest) = true ↔
      (style = .angle → n.affordsArguments module owner args = true) ∧
        n.affordsSegments module owner rest = true := by
  rw [affordsSegments, Bool.and_eq_true]
  by_cases hangle : style = .angle <;> simp [hangle]

/-! ### Mentions -/

/-- Whether all lookups for what `Self` means at a place leave something of their budgets. -/
def affordsOwner (n : Names) (place : Place) : Bool :=
  place.owner.all fun (module, type) => n.affordsType module none type

/-- Whether all lookups for a path that is written at a place do. -/
def affordsPath (n : Names) (place : Place) (p : Path) : Bool :=
  n.affordsSegments place.module (n.ownerAt place) p.segments &&
    n.affords place.module (n.routeAt place p) (n.ownerAt place)

/-- Whether all lookups for what a callee constructs do. -/
def affordsCallee (n : Names) (place : Place) (callee : Expr) : Bool :=
  match callee.bare with
  | .path _ p => n.affordsPath place p
  | _ => true

/-- Whether all lookups for the type of a value do. -/
def affordsValue (n : Names) (place : Place) : Expr → Bool
  | .tried inner => n.affordsValue place inner
  | .paren inner => n.affordsValue place inner
  | .attributed _ inner => n.affordsValue place inner
  | .method receiver name _ _ _ =>
    if name.text == "unwrap" || name.text == "expect" then n.affordsValue place receiver else true
  | .call callee _ => n.affordsCallee place callee
  | .construct _ p _ => n.affordsPath place p
  | _ => true

/-- Whether a route that stands as a value is a **lone name that its module does not know**, which
is a variable and not looked up. -/
def isVariable (n : Names) (module : List String) (kind : CallKind) (route : Route) : Bool :=
  match kind, route with
  | .path, _ => false
  | _, [step] => !n.knows module step.name
  | _, _ => false

/-- Whether all lookups for a mention, with the type of the implementation around it, **leave
something of their budgets**. -/
def affordsMention (n : Names) (place : Place) (m : Mention) : Bool :=
  n.affordsOwner place &&
    match m with
    | .path called _ path =>
      n.affordsSegments place.module (n.ownerAt place) path.segments &&
        (n.isVariable place.module (kindOf called) (n.routeAt place path) ||
          n.affords place.module (n.routeAt place path) (n.ownerAt place))
    | .qualified _ _ owner position path =>
      n.affordsSegments place.module (n.ownerAt place) path.segments &&
        (position == 0 ||
          n.affords place.module ((n.routeAt place path).take position) (n.ownerAt place)) &&
        n.affordsType place.module (n.ownerAt place) owner
    | .method _ _ _ => true
    | .tokens ts =>
      (tokenPaths ts).all fun (names, _) =>
        n.isVariable place.module .macroBody (.ofNames names) ||
          n.affords place.module (.ofNames names) (n.ownerAt place)
    | .typed _ type => n.affordsType place.module (n.ownerAt place) type
    | .bound _ value => n.affordsValue place value

theorem sitesOfPath_eq (n : Names) (place : Place) (kind : CallKind) (p : Position)
    (route : Route) :
    n.sitesOfPath place kind p route =
      if n.isVariable place.module kind route then []
      else (n.candidatesAt place route).filterMap (siteOf kind p) := rfl

/-! ### Programs -/

/-- Whether all lookups for a name for a type, if a declaration is one, leave something of their
budgets. -/
def affordsAlias (n : Names) (d : Declaration) : Bool :=
  match d.what with
  | .typeAlias _ type => n.affordsType d.module none type
  | _ => true

/-- Whether they do for names for types that are added one after another. -/
def affordsAliases (n : Names) : List Declaration → Bool
  | [] => true
  | d :: rest => n.affordsAlias d && (n.addAlias d).affordsAliases rest

end Names

/-- Whether **no lookup of a program** uses up its budget. -/
def Program.SourceFile.affordsLookups (p : SourceFile) : Bool :=
  (Names.ofDeclarations p.declarations).affordsAliases p.declarations &&
    p.mentions.all fun (place, m) => (Names.ofProgram p).affordsMention place m

end CapabilityGate
