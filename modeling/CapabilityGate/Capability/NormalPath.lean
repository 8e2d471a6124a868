import CapabilityGate.Text.Letter

/-!
# Paths in normal form

Types, modules and functions are named by a path: names joined by `::`. Two spellings of a path
compare equal after normalisation, which drops every blank character and the leading `::`, and
reads the roots `core` and `alloc` as `std`, since they share the items that a program can name.

## Main definitions

* `normalPath`: the normal form of a path.
* `splitPath`, `joinPath`: a path as the list of its names, and back.
* `isIdentifier`: what one name of a path may be.
-/

namespace CapabilityGate

open Text

/-- The text after any number of leading `::`. -/
def dropLeadingColons : List Char → List Char
  | ':' :: ':' :: rest => dropLeadingColons rest
  | s => s

/-- What follows `root` in a path that is `root` or starts with `root::`. -/
def afterRoot (root : List Char) (path : List Char) : Option (List Char) :=
  if root.isPrefixOf path then
    match path.drop root.length with
    | [] => some []
    | ':' :: ':' :: rest => some (':' :: ':' :: rest)
    | _ => none
  else none

/-- A path without blanks with `core` or `alloc` at its root read as `std`. -/
def standardRoot (path : List Char) : List Char :=
  match afterRoot ['c', 'o', 'r', 'e'] path with
  | some rest => ['s', 't', 'd'] ++ rest
  | none =>
    match afterRoot ['a', 'l', 'l', 'o', 'c'] path with
    | some rest => ['s', 't', 'd'] ++ rest
    | none => path

/-- The **normal form** of a path: no blank characters, no leading `::`, and the roots `core`
and `alloc` written as `std`. -/
def normalPath (path : String) : String :=
  String.ofList (standardRoot (dropLeadingColons (withoutBlanks path.toList)))

/-- The names of a path, cut at each `::` from the left. The parts hold `acc`, the characters
of the first name read so far, backwards. -/
def splitColons (acc : List Char) : List Char → List (List Char)
  | ':' :: ':' :: rest => acc.reverse :: splitColons [] rest
  | c :: rest => splitColons (c :: acc) rest
  | [] => [acc.reverse]

/-- The names of a path. The empty path has one name, the empty one. -/
def splitPath (path : String) : List String :=
  (splitColons [] path.toList).map String.ofList

/-- The path that a list of names spells. -/
def joinPath (names : List String) : String :=
  String.intercalate "::" names

/-- One name of a path: an alphabetic character or an underscore, then alphanumeric characters
and underscores. -/
def isIdentifier : List Char → Bool
  | [] => false
  | c :: rest => (isAlphabetic c || c == '_') && rest.all fun d => isAlphanumeric d || d == '_'

theorem splitColons_ne_nil (acc s : List Char) : splitColons acc s ≠ [] := by
  fun_induction splitColons acc s <;> simp_all

/-- A path has at least one name. -/
theorem splitPath_ne_nil (path : String) : splitPath path ≠ [] := by
  simp [splitPath, splitColons_ne_nil]

end CapabilityGate
