import CapabilityGate.Capability.NormalPath

/-!
# Names of types

A type or a module is named by a path in normal form with generic arguments, which are names of
types again. The text of a name is its path, followed by the arguments in angle brackets.

## Main definitions

* `TypeName`: a path with arguments.
* `TypeName.text`: its text.
* `TypeName.parse`: reads a text.
* `DescriptorError`: why a text is refused, with its wording in `DescriptorError.message`.
-/

namespace CapabilityGate

open Text

/-- A type or module: a path with generic arguments. -/
inductive TypeName where
  /-- The path and the arguments. -/
  | mk (path : String) (args : List TypeName)
  deriving Repr, Inhabited

namespace TypeName

/-- The path of a name. -/
def path : TypeName → String
  | mk path _ => path

/-- The generic arguments of a name. -/
def args : TypeName → List TypeName
  | mk _ args => args

/-- The name with the normal form of `path`, and without arguments. -/
def ofPath (path : String) : TypeName :=
  mk (normalPath path) []

/-- The name with the normal form of `path`, applied to `args`. -/
def apply (path : String) (args : List TypeName) : TypeName :=
  mk (normalPath path) args

/-- Whether a name has generic arguments. -/
def isGeneric (t : TypeName) : Bool :=
  !t.args.isEmpty

mutual
/-- Whether two names have the same path and the same arguments. -/
def same : TypeName → TypeName → Bool
  | mk p as, mk q bs => p == q && sameAll as bs

/-- Whether two argument lists are the same. -/
def sameAll : List TypeName → List TypeName → Bool
  | [], [] => true
  | a :: as, b :: bs => same a b && sameAll as bs
  | _, _ => false
end

mutual
/-- Types that are found the same **are equal**. -/
theorem eq_of_same : ∀ (s t : TypeName), same s t = true → s = t
  | mk p as, mk q bs, h => by
    simp only [same, Bool.and_eq_true, beq_iff_eq] at h
    rw [h.1, eq_of_sameAll as bs h.2]

/-- So are several types. -/
theorem eq_of_sameAll : ∀ (as bs : List TypeName), sameAll as bs = true → as = bs
  | [], [], _ => rfl
  | a :: as, b :: bs, h => by
    simp only [sameAll, Bool.and_eq_true] at h
    rw [eq_of_same a b h.1, eq_of_sameAll as bs h.2]
  | [], _ :: _, h => by simp [sameAll] at h
  | _ :: _, [], h => by simp [sameAll] at h
end

mutual
/-- A type is found the same **as itself**. -/
theorem same_self : ∀ t : TypeName, same t t = true
  | mk p as => by simp [same, sameAll_self as]

/-- So are several types. -/
theorem sameAll_self : ∀ as : List TypeName, sameAll as as = true
  | [] => rfl
  | a :: as => by simp [sameAll, same_self a, sameAll_self as]
end

/-- The test for the same type is **equality**. -/
theorem same_iff {s t : TypeName} : same s t = true ↔ s = t :=
  ⟨eq_of_same s t, fun h => h ▸ same_self s⟩

instance : DecidableEq TypeName := fun s t =>
  decidable_of_iff (same s t = true) same_iff

mutual
/-- The text of a name: its path, then its arguments in angle brackets. -/
def text : TypeName → String
  | mk path [] => path
  | mk path (a :: as) => path ++ "<" ++ a.text ++ textMore as ++ ">"

/-- The texts of the arguments after the first, each after a comma and a space. -/
def textMore : List TypeName → String
  | [] => ""
  | a :: as => ", " ++ a.text ++ textMore as
end

end TypeName

/-- Why a descriptor text is refused. Each cause names the text at fault and `whole`, the text
of a type or descriptor that it stands in. -/
inductive DescriptorError where
  /-- The path `raw` is empty or has a part that is no identifier. -/
  | badPath (raw whole : String)
  /-- Something follows a complete type. -/
  | trailing (whole : String)
  /-- An argument list is not closed. -/
  | unclosed (whole : String)
  /-- What follows the last `#` is no identifier. -/
  | badMethod (method whole : String)
  deriving Repr, DecidableEq

/-- The wording of a refused descriptor. -/
def DescriptorError.message : DescriptorError → String
  | badPath raw whole => "invalid type path '" ++ raw ++ "' in '" ++ whole ++ "'"
  | trailing whole => "unexpected trailing input in '" ++ whole ++ "'"
  | unclosed whole => "unterminated generic argument list in '" ++ whole ++ "'"
  | badMethod method whole => "invalid method filter '" ++ method ++ "' in '" ++ whole ++ "'"

namespace TypeName

/-- The characters that the path of a type text is made of. -/
def isPathChar (c : Char) : Bool :=
  isAlphanumeric c || c == '_' || c == ':'

/-- Whether a normal path names something: each of its names is an identifier. -/
def isProperPath (path : String) : Bool :=
  (splitPath path).all fun name => isIdentifier name.toList

mutual
/-- Reads a type at the start of a text and returns it with the rest. `whole` is the text that
an error names. The first argument bounds how deep argument lists nest; the length of the text
is enough. -/
def read (whole : String) : Nat → List Char → Except DescriptorError (TypeName × List Char)
  | 0, _ => .error (.unclosed whole)
  | depth + 1, s =>
    let s := s.dropWhile isBlank
    let raw := String.ofList (s.takeWhile isPathChar)
    let path := normalPath raw
    if isProperPath path then
      match (s.dropWhile isPathChar).dropWhile isBlank with
      | '<' :: rest =>
        match readArgs whole depth rest with
        | .ok (args, rest) => .ok (mk path args, rest)
        | .error e => .error e
      | rest => .ok (mk path [], rest)
    else .error (.badPath raw whole)

/-- Reads the arguments of a list whose bracket is open, and the bracket that closes it. -/
def readArgs (whole : String) :
    Nat → List Char → Except DescriptorError (List TypeName × List Char)
  | 0, _ => .error (.unclosed whole)
  | depth + 1, s =>
    match read whole depth s with
    | .error e => .error e
    | .ok (first, rest) =>
      match rest.dropWhile isBlank with
      | ',' :: rest =>
        match readArgs whole depth rest with
        | .ok (more, rest) => .ok (first :: more, rest)
        | .error e => .error e
      | '>' :: rest => .ok ([first], rest)
      | _ => .error (.unclosed whole)
end

/-- Reads a text that is one type and nothing else. -/
def parse (s : String) : Except DescriptorError TypeName :=
  match read s (2 * s.length + 1) s.toList with
  | .error e => .error e
  | .ok (t, rest) =>
    if (rest.dropWhile isBlank).isEmpty then .ok t else .error (.trailing s)

end TypeName

end CapabilityGate
