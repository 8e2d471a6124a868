import CapabilityGate.Capability.CallSite
import CapabilityGate.Program.Mention
import CapabilityGate.Program.TokenRun
import CapabilityGate.Resolution.TypeMeaning

/-!
# What a program uses

The model of a program lists its call sites, each with the item that it names, and the external
crates that it refers to. There is no type inference: the receiver of a method has a type only
when it is `self` or a name bound with a type or by one of the usual constructors.

## Main definitions

* `Model`: the names, call sites and external crates of a program.
* `Model.ofProgram`: the model of a program.
* `Model.isUnresolved`: whether a call site points into the program at nothing it declares.
* `Model.resolvePath`, `Model.namedType`, `Model.canonical`: the meaning of a text.
-/

namespace CapabilityGate

open Program

/-- What a program uses. -/
structure Model where
  /-- The names it declares. -/
  names : Names
  /-- Its call sites, in the order in which they are met. -/
  sites : List CallSite
  /-- The external crates it refers to, ordered by name. -/
  namespaces : List String
  deriving Inhabited

/-- The types of the names that have been bound so far, the latest first. -/
abbrev Bindings : Type := List (String × TypeName)

namespace Names

/-- What `Self` means at a place. -/
def ownerAt (n : Names) (place : Place) : Option TypeName :=
  place.owner.map fun (module, type) => n.typeMeaning module none type

/-- The candidates of a route that is written at a place. -/
def candidatesAt (n : Names) (place : Place) (route : Route) : List Route :=
  n.candidates place.module route (n.ownerAt place)

/-- The route of a path that is written at a place. -/
def routeAt (n : Names) (place : Place) (p : Path) : Route :=
  n.routeOf place.module (n.ownerAt place) p

/-- The call site of a candidate; a single name has no container and makes none. -/
def siteOf (kind : CallKind) (p : Position) (candidate : Route) : Option CallSite :=
  candidate.split?.map fun (container, method) => ⟨container, method, kind, p.line, p.column⟩

/-- The call sites of a path without a type in front. A lone name that stands as a value and
that the module does not know is a variable. -/
def sitesOfPath (n : Names) (place : Place) (kind : CallKind) (p : Position) (route : Route) :
    List CallSite :=
  let isVariable := match kind, route with
    | .path, _ => false
    | _, [step] => !n.knows place.module step.name
    | _, _ => false
  if isVariable then [] else (n.candidatesAt place route).filterMap (siteOf kind p)

/-- The call sites of a path below a type: the trait that it names, if it names one, and the
type. -/
def sitesOfQualified (n : Names) (place : Place) (kind : CallKind) (p : Position) (owner : Ty)
    (position : Nat) (path : Path) : List CallSite :=
  match path.segments.getLast? with
  | none => []
  | some last =>
    let site (t : TypeName) : CallSite := ⟨t, last.name, kind, p.line, p.column⟩
    let trait_ := if position == 0 then []
      else (n.candidatesAt place ((n.routeAt place path).take position)).take 1
    trait_.map (fun r => site r.type) ++
      [site (n.typeMeaning place.module (n.ownerAt place) owner)]

/-- The first candidate of a path that is written at a place. -/
def firstOf (n : Names) (place : Place) (p : Path) : Option Route :=
  (n.candidatesAt place (n.routeAt place p)).head?

/-- The type that a call of `callee` makes a value of, if it is a call of a constructor. -/
def constructedBy (n : Names) (place : Place) (callee : Expr) : Option TypeName :=
  match callee.bare with
  | .path _ p =>
    match (n.firstOf place p).bind Route.split? with
    | some (container, method) => if constructors.contains method then some container else none
    | none => none
  | _ => none

/-- The type that an expression makes a value of, as far as it shows: through `?`, `unwrap` and
`expect`. -/
def constructed (n : Names) (place : Place) : Expr → Option TypeName
  | .tried inner => n.constructed place inner
  | .paren inner => n.constructed place inner
  | .attributed _ inner => n.constructed place inner
  | .method receiver name _ _ _ =>
    if name.text == "unwrap" || name.text == "expect" then n.constructed place receiver else none
  | .call callee _ => n.constructedBy place callee
  | .construct _ p _ => (n.firstOf place p).map fun r => .ofPath r.path
  | _ => none

/-- The type of the receiver of a method, if it is known. -/
def receiverType (n : Names) (place : Place) (bindings : Bindings) : Expr → Option TypeName
  | .path _ p =>
    match p.ident? with
    | some name => if name == "self" then n.ownerAt place else bindings.lookup name
    | none => none
  | .paren inner => n.receiverType place bindings inner
  | .reference inner => n.receiverType place bindings inner
  | .attributed _ inner => n.receiverType place bindings inner
  | _ => none

/-- The kind of call site that a path makes. -/
def kindOf (called : Bool) : CallKind :=
  if called then .path else .reference

/-- The call sites of a mention. -/
def sitesOf (n : Names) (bindings : Bindings) (place : Place) : Mention → List CallSite
  | .path called p path => n.sitesOfPath place (kindOf called) p (n.routeAt place path)
  | .qualified called p owner position path =>
    n.sitesOfQualified place (kindOf called) p owner position path
  | .method receiver name p =>
    match n.receiverType place bindings receiver with
    | some t => [⟨t, name, .method, p.line, p.column⟩]
    | none => []
  | .tokens ts =>
    (tokenPaths ts).flatMap fun (names, p) => n.sitesOfPath place .macroBody p (.ofNames names)
  | .typed _ _ | .bound _ _ => []

/-- The bindings after a mention. -/
def bindingsAfter (n : Names) (bindings : Bindings) (place : Place) : Mention → Bindings
  | .typed name type =>
    (name, n.typeMeaning place.module (n.ownerAt place) type) :: bindings
  | .bound name value =>
    match n.constructed place value with
    | some t => (name, t) :: bindings
    | none => bindings
  | _ => bindings

/-- The call sites of mentions in order, met with the given bindings. -/
def sitesOfAll (n : Names) : Bindings → List (Place × Mention) → List CallSite
  | _, [] => []
  | bindings, (place, m) :: rest =>
    n.sitesOf bindings place m ++ n.sitesOfAll (n.bindingsAfter bindings place m) rest

end Names

/-- Puts a text into a list that is ordered and without duplicates. -/
def insertOrdered (s : String) : List String → List String
  | [] => [s]
  | t :: rest =>
    if s == t then t :: rest else if s < t then s :: t :: rest else t :: insertOrdered s rest

/-- The members of a list in order, each once. -/
def ordered (xs : List String) : List String :=
  xs.foldl (fun done s => insertOrdered s done) []

namespace Model

/-- The **model** of a program. -/
def ofProgram (p : SourceFile) : Model :=
  let names := Names.ofProgram p
  let sites := names.sitesOfAll [] p.mentions
  let roots := p.declarations.flatMap Names.rootsOf ++
    sites.flatMap fun s => (splitPath s.container.path).take 1
  ⟨names, sites, ordered (roots.filter names.isCrateRoot)⟩

/-- Whether a call site points into the program at something that no module declares, such as an
item that a macro makes, or an import that never reaches an item. -/
def isUnresolved (m : Model) (s : CallSite) : Bool :=
  match splitPath s.container.path with
  | root :: rest => root == "crate" && m.names.isMissing [] (rest ++ [s.method])
  | [] => false

/-- What a path means that is written at the root of the program. -/
def resolvePath (m : Model) (written : String) : Option TypeName :=
  match TypeName.parse written with
  | .ok t => (m.names.candidates [] (.ofType t) none).head?.map Route.type
  | .error _ => none

/-- The type with a full name, which no import changes. -/
def namedType (name : String) : TypeName :=
  .ofPath ((prelude? name).getD name)

/-- An open generic type, closed over arguments. -/
def construct (open_ : TypeName) (args : List TypeName) : TypeName :=
  .apply open_.path args

mutual
/-- The canonical form of a type that is given by its full name. -/
def canonical : TypeName → TypeName
  | .mk path [] => namedType path
  | .mk path (a :: as) => construct (namedType path) (canonical a :: canonicalAll as)

/-- The canonical forms of several types. -/
def canonicalAll : List TypeName → List TypeName
  | [] => []
  | a :: as => canonical a :: canonicalAll as
end

end Model

end CapabilityGate
