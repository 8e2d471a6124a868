import CapabilityGate.Files.OsError
import CapabilityGate.Files.Path
import CapabilityGate.Process.Script

/-!
# A tree of files

The files that runs read and write, as one value: a tree of directories that hold files, programs
and compilers by name, and the directory from which relative paths are taken.

## Main definitions

* `Entry`: a file, something that can be executed, or a directory.
* `Files`: a tree, and the directory that paths start from.
* `Files.stat`, `Files.isFile`, `Files.readFile`: what a path leads to.
* `Files.makeDirectory`, `Files.makeDirectories`, `Files.write`, `Files.copy`, `Files.removeAll`:
  changed trees.
* `Files.below`: everything below a directory.
-/

namespace CapabilityGate

/-- Something that can be executed. -/
inductive Executable where
  /-- A program. -/
  | program (script : Script)
  /-- A compiler. -/
  | compiler (script : CompilerScript)
  deriving Repr, DecidableEq

/-- What a directory holds under a name. -/
inductive Entry where
  /-- A file with its bytes. -/
  | file (bytes : List UInt8)
  /-- A file that can be executed. -/
  | executable (what : Executable)
  /-- A directory, its names in order. -/
  | directory (entries : List (String × Entry))
  deriving Inhabited

namespace Entry

/-- Whether an entry is a directory. -/
def isDirectory : Entry → Bool
  | directory _ => true
  | _ => false

/-- The entry that names lead to. -/
def find? : List String → Entry → Option Entry
  | [], e => some e
  | name :: rest, directory entries => (entries.lookup name).bind (find? rest)
  | _ :: _, _ => none

/-- Puts an entry into a directory, in order of the names, in place of one of that name. -/
def insertInto (name : String) (e : Entry) : List (String × Entry) → List (String × Entry)
  | [] => [(name, e)]
  | (n, old) :: rest =>
    if name == n then (name, e) :: rest
    else if name < n then (name, e) :: (n, old) :: rest
    else (n, old) :: insertInto name e rest

/-- The directory with another entry at the place that names lead to, or without one there. -/
def set (change : Option Entry) : List String → Entry → Entry
  | [], e => change.getD e
  | [name], directory entries =>
    match change with
    | some e => directory (insertInto name e entries)
    | none => directory (entries.filter (·.1 != name))
  | name :: rest, directory entries =>
    directory (entries.map fun (n, e) => (n, if n == name then set change rest e else e))
  | _ :: _, e => e

mutual
/-- The paths of everything below an entry at `path`, each directory before what it holds. -/
def pathsBelow (path : String) : Entry → List String
  | directory entries => pathsWithin path entries
  | _ => []

/-- The paths of entries in the directory `path`, with everything below them. -/
def pathsWithin (path : String) : List (String × Entry) → List String
  | [] => []
  | (name, e) :: rest =>
    FilePath.join path name :: (e.pathsBelow (FilePath.join path name) ++ pathsWithin path rest)
end

end Entry

/-- A tree of files. -/
structure Files where
  /-- The root directory. -/
  root : Entry
  /-- The names that lead to the directory from which relative paths are taken. -/
  here : List String
  deriving Inhabited

namespace Files

/-- How many bytes a name may have. -/
def maxName : Nat := 255

/-- How many bytes a path may have. -/
def maxPath : Nat := 4095

/-- Follows the names of a path from a directory. The last name may lead to nothing. -/
def follow (f : Files) : (place : List String) → List String → Except OsError (List String)
  | place, [] => .ok place
  | place, name :: rest =>
    match f.root.find? place with
    | none => .error .notFound
    | some (.directory _) =>
      if maxName < name.utf8ByteSize then .error .nameTooLong
      else if name == "." then f.follow place rest
      else if name == ".." then f.follow place.dropLast rest
      else f.follow (place ++ [name]) rest
    | some _ => .error .notDirectory

/-- The place that a path leads to. A slash at its end asks for a directory unless `bare`. -/
def locate (f : Files) (bare : Bool) (path : String) : Except OsError (List String) :=
  if path.toList.contains '\x00' then .error .nullInPath
  else if path.isEmpty then .error .notFound
  else if maxPath < path.utf8ByteSize then .error .nameTooLong
  else
    let names := FilePath.names path
    let names := if !bare && path.toList.getLast? == some '/' then names ++ ["."] else names
    f.follow (if FilePath.isAbsolute path then [] else f.here) names

/-- What a path leads to, and its place. -/
def stat (f : Files) (path : String) : Except OsError (List String × Entry) := do
  let place ← f.locate false path
  match f.root.find? place with
  | some e => return (place, e)
  | none => throw .notFound

/-- Whether a path leads to anything. -/
def isThere (f : Files) (path : String) : Bool :=
  match f.stat path with
  | .ok _ => true
  | .error _ => false

/-- Whether a path leads to a file. -/
def isFile (f : Files) (path : String) : Bool :=
  match f.stat path with
  | .ok (_, e) => !e.isDirectory
  | .error _ => false

/-- Whether a path leads to a directory. -/
def isDirectory (f : Files) (path : String) : Bool :=
  match f.stat path with
  | .ok (_, e) => e.isDirectory
  | .error _ => false

/-- The bytes of a file. -/
def readFile (f : Files) (path : String) : Except OsError (List UInt8) := do
  match ← f.stat path with
  | (_, .file bytes) => return bytes
  | (_, .executable _) => return []
  | (_, .directory _) => throw .isDirectory

/-- The text of a file. -/
def readText (f : Files) (path : String) : Except OsError String := do
  match Text.decode? (← f.readFile path) with
  | some s => return s
  | none => throw .noText

/-- The tree with an entry at a place. -/
def put (f : Files) (place : List String) (e : Entry) : Files :=
  { f with root := f.root.set (some e) place }

/-- Makes a directory. -/
def makeDirectory (f : Files) (path : String) : Except OsError Files := do
  let place ← f.locate true path
  match f.root.find? place with
  | some _ => throw .alreadyThere
  | none =>
    match f.root.find? place.dropLast with
    | some (.directory _) => return f.put place (.directory [])
    | some _ => throw .notDirectory
    | none => throw .notFound

/-- Makes a directory unless it is there. -/
def ensureDirectory (f : Files) (path : String) : Files × Except OsError Unit :=
  match f.makeDirectory path with
  | .ok f => (f, .ok ())
  | .error e => (f, if f.isDirectory path then .ok () else .error e)

/-- Makes a directory unless it is there, and those above it that are missing. `fuel` bounds
their number. -/
def makeDirectoriesFor : (fuel : Nat) → String → Files → Files × Except OsError Unit
  | 0, _, f => (f, .error .notFound)
  | fuel + 1, path, f =>
    if path.isEmpty then (f, .ok ())
    else
      match f.makeDirectory path, FilePath.parent? path with
      | .error .notFound, some above =>
        match makeDirectoriesFor fuel above f with
        | (f, .ok ()) => f.ensureDirectory path
        | (f, .error e) => (f, .error e)
      | _, _ => f.ensureDirectory path

/-- Makes a directory unless it is there, and those above it that are missing. Directories made
before a failure stay. -/
def makeDirectories (f : Files) (path : String) : Files × Except OsError Unit :=
  makeDirectoriesFor (path.length + 1) path f

/-- Puts an entry that is no directory at a path, in place of one that is there. -/
def write (f : Files) (path : String) (e : Entry) : Except OsError Files := do
  let place ← f.locate false path
  match f.root.find? place with
  | some (.directory _) => throw .isDirectory
  | some _ => return f.put place e
  | none =>
    match f.root.find? place.dropLast with
    | some (.directory _) => return f.put place e
    | some _ => throw .notDirectory
    | none => throw .notFound

/-- Copies a file. -/
def copy (f : Files) (source target : String) : Except OsError Files := do
  match ← f.stat source with
  | (_, .directory _) => throw .noRegularFile
  | (_, e) => f.write target e

/-- Removes a directory with everything below it. A directory that is named by a dot loses what
is below it but stays itself. -/
def removeAll (f : Files) (path : String) : Files × Except OsError Unit :=
  match f.stat path with
  | .ok (place, .directory _) =>
    match (FilePath.names path).getLast? with
    | some "." => (f.put place (.directory []), .error .invalid)
    | some ".." => (f.put place (.directory []), .ok ())
    | _ => ({ f with root := f.root.set none place }, .ok ())
  | .ok _ => (f, .error .notDirectory)
  | .error e => (f, .error e)

/-- The names in a directory, in order. -/
def namesIn (f : Files) (place : List String) : List String :=
  match f.root.find? place with
  | some (.directory entries) => entries.map Prod.fst
  | _ => []

/-- The paths of everything **below** a directory, each directory before what it holds. -/
def below (f : Files) (path : String) : List String :=
  match f.stat path with
  | .ok (_, e) => e.pathsBelow path
  | .error _ => []

/-- The text of the path from the root to a place. -/
def absolute (place : List String) : String :=
  "/" ++ String.intercalate "/" place

end Files

end CapabilityGate
