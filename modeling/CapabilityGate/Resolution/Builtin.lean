import CapabilityGate.Resolution.Route

/-!
# Names known everywhere

The names that a module knows without declaring or importing them, and the names that can be no
external crate.

## Main definitions

* `prelude?`: the path of a name of the prelude.
* `primitives`: the primitive types.
* `constructors`: the functions that are taken to make a value of the type they belong to.
* `pathRoots`: the roots of paths that lead to no external crate.
-/

namespace CapabilityGate

/-- The names of the prelude, each with its path. -/
def preludePaths : List (String × String) :=
  [("Vec", "std::vec::Vec"),
   ("String", "std::string::String"),
   ("Box", "std::boxed::Box"),
   ("Option", "std::option::Option"),
   ("Some", "std::option::Option::Some"),
   ("None", "std::option::Option::None"),
   ("Result", "std::result::Result"),
   ("Ok", "std::result::Result::Ok"),
   ("Err", "std::result::Result::Err"),
   ("ToString", "std::string::ToString"),
   ("ToOwned", "std::borrow::ToOwned"),
   ("Clone", "std::clone::Clone"),
   ("Default", "std::default::Default"),
   ("Iterator", "std::iter::Iterator"),
   ("IntoIterator", "std::iter::IntoIterator"),
   ("Extend", "std::iter::Extend"),
   ("From", "std::convert::From"),
   ("Into", "std::convert::Into"),
   ("drop", "std::mem::drop")]

/-- The path of a name of the prelude. -/
def prelude? (name : String) : Option String :=
  preludePaths.lookup name

theorem mem_of_prelude {name path : String} (h : prelude? name = some path) :
    (name, path) ∈ preludePaths := by
  obtain ⟨before, after, hsplit, -⟩ := List.lookup_eq_some_iff.mp h
  rw [hsplit]
  simp

/-- The path of a name of the prelude is in **normal form**. -/
theorem normalPath_of_prelude {name path : String} (h : prelude? name = some path) :
    normalPath path = path := by
  have hall : ∀ entry ∈ preludePaths, normalPath entry.2 = entry.2 := by decide +kernel
  exact hall (name, path) (mem_of_prelude h)

/-- The primitive types. -/
def primitives : List String :=
  ["bool", "char", "str", "u8", "u16", "u32", "u64", "u128", "usize", "i8", "i16", "i32", "i64",
   "i128", "isize", "f32", "f64"]

/-- The functions of a type that are taken to return a value of it. -/
def constructors : List String :=
  ["new", "default", "with_capacity", "from", "create", "open"]

/-- The roots of paths that lead to no external crate. -/
def pathRoots : List String :=
  ["std", "core", "alloc", "crate", "self", "super", "Self"]

end CapabilityGate
