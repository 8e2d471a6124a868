/-!
# Paths of files

The text of a path is a list of names with slashes between them. An empty name and a name that is
a single dot lead nowhere.

## Main definitions

* `FilePath.join`: a path below another one.
* `FilePath.parent?`: the path without its last component.
* `FilePath.components`: what a path consists of.
* `FilePath.before`: the order of paths by their components.
-/

namespace CapabilityGate.FilePath

/-- Whether a path starts at the root. -/
def isAbsolute (path : String) : Bool :=
  path.toList.head? == some '/'

/-- The path `name`, taken from the directory `base`. -/
def join (base name : String) : String :=
  if isAbsolute name || base.isEmpty then name
  else if base.toList.getLast? == some '/' then base ++ name
  else base ++ "/" ++ name

/-- The names between the slashes of a path, empty ones included. The names hold `acc`, the
characters of the first name read so far, backwards. -/
def splitSlashes (acc : List Char) : List Char → List (List Char)
  | [] => [acc.reverse]
  | c :: rest =>
    if c == '/' then acc.reverse :: splitSlashes [] rest else splitSlashes (c :: acc) rest

/-- The names of a path that are not empty. -/
def names (path : String) : List String :=
  ((splitSlashes [] path.toList).filter (!·.isEmpty)).map String.ofList

/-- A path, given backwards, without the slashes and single dots at its end that lead nowhere. -/
def trimBackwards : List Char → List Char
  | '/' :: rest => if rest.all (· == '/') then ['/'] else trimBackwards rest
  | '.' :: '/' :: rest => if rest.isEmpty then ['/'] else trimBackwards ('/' :: rest)
  | s => s

/-- The path without its last component, or none if there is no component. -/
def parent? (path : String) : Option String :=
  let backwards := match path.toList.reverse with
    | [] => []
    | s => trimBackwards s
  if backwards.isEmpty || backwards == ['/'] then none
  else
    match backwards.dropWhile (· != '/') with
    | [] => some ""
    | above => some (String.ofList (trimBackwards above).reverse)

/-- A component of a path. -/
inductive Component where
  /-- The root. -/
  | root
  /-- The directory itself, at the start of a path only. -/
  | here
  /-- The directory above. -/
  | up
  /-- A name. -/
  | name (text : String)
  deriving Repr, DecidableEq

/-- The component that a name is. -/
def Component.ofName (name : String) : Component :=
  if name == ".." then .up else if name == "." then .here else .name name

/-- The **components** of a path. -/
def components (path : String) : List Component :=
  let all := (names path).map Component.ofName
  if isAbsolute path then .root :: all.filter (· ≠ .here)
  else
    match all with
    | .here :: rest => .here :: rest.filter (· ≠ .here)
    | all => all.filter (· ≠ .here)

/-- Whether a component comes before another one. -/
def Component.before : Component → Component → Bool
  | name s, name t => s < t
  | a, b => rank a < rank b
where
  /-- The place of the kind of a component in the order of the kinds. -/
  rank : Component → Nat
    | root => 0
    | here => 1
    | up => 2
    | name _ => 3

/-- Whether a list of components comes before another one. -/
def componentsBefore : List Component → List Component → Bool
  | [], b => !b.isEmpty
  | _, [] => false
  | a :: as, b :: bs => a.before b || (a = b && componentsBefore as bs)

/-- Whether a path comes **before** another one. -/
def before (p q : String) : Bool :=
  componentsBefore (components p) (components q)

/-- Puts a path into a list in order, unless a path with the same components is there. -/
def insertOrdered (p : String) : List String → List String
  | [] => [p]
  | q :: rest =>
    if components p = components q then q :: rest
    else if before p q then p :: q :: rest
    else q :: insertOrdered p rest

end CapabilityGate.FilePath
