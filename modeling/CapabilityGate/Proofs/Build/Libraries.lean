import CapabilityGate.Build.Compiler
import CapabilityGate.Proofs.Files.PathOrder

/-!
# The libraries of a program

A program is linked with the libraries that all programs are linked with, in the order in which they
are listed, and then with those allowed ones that it refers to, in order, unless they are among the
first ones. Each of them has its file from the list. The first one whose file is not there is
reported instead.

A library that is listed twice for all programs is linked twice. That is the only way in which one
is not linked once.

## Main definitions

* `AllowList.isMissing`: an allowed library whose file is not there.
* `AllowList.library?`: the library of a name, wherever its file is.
* `AllowList.AreLinked`, `AllowList.IsAnswered`: what is promised of libraries.

## Main results

* `AllowList.libraries_eq`: the libraries of a program, or the first one that is missing.
* `Compiler.arguments_eq`: what the compiler is told about libraries.
* `AllowList.libraries_are_linked`: the promise is kept for every list that is accepted.
* `AllowList.platform_library_twice`: a library that is linked twice.
-/

namespace CapabilityGate

namespace AllowList

variable {a : AllowList} {f : Files} {namespaces : List String} {name path : String}

/-! ### Files of libraries -/

/-- An allowed library **is missing** if its file is not there. -/
def isMissing (a : AllowList) (f : Files) (name : String) : Bool :=
  match a.crates.lookup name with
  | some path => !f.isFile path
  | none => false

/-- The library of a name, if it is an allowed one, **wherever its file is**. -/
def library? (a : AllowList) (name : String) : Option Library :=
  (a.crates.lookup name).map (Library.mk name)

/-- A library is missing if it **has a path**, and there is no file. -/
theorem isMissing_iff :
    a.isMissing f name = true ↔ ∃ path, a.crates.lookup name = some path ∧ f.isFile path = false := by
  rw [isMissing]
  cases a.crates.lookup name with
  | none => simp
  | some path => simp

/-- The library of a name is found, or **it is missing**. -/
theorem library_eq (a : AllowList) (f : Files) (name : String) :
    a.library f name =
      if a.isMissing f name then
        .error (.libraryMissing name ((a.crates.lookup name).getD ""))
      else .ok (a.library? name) := by
  rw [library, isMissing, library?]
  cases a.crates.lookup name with
  | none => rfl
  | some path => cases h : f.isFile path <;> simp [h]

/-- Libraries are looked up **one after another**, up to the first that is missing. -/
theorem mapM_library (a : AllowList) (f : Files) (names : List String) :
    names.mapM (a.library f) =
      match names.find? (a.isMissing f) with
      | some name => .error (.libraryMissing name ((a.crates.lookup name).getD ""))
      | none => .ok (names.map a.library?) := by
  induction names with
  | nil => rfl
  | cons name names ih =>
      rw [List.mapM_cons, library_eq, ih, List.find?_cons]
      cases a.isMissing f name with
      | true => rfl
      | false => cases names.find? (a.isMissing f) <;> rfl

/-- A name that is looked up before is **not missed** for the first time later on. -/
theorem find?_names (p : String → Bool) :
    (a.names namespaces).find? p = (a.platform ++ namespaces).find? p := by
  rw [names, List.find?_append, List.find?_append]
  cases hplatform : a.platform.find? p with
  | some name => rfl
  | none =>
      rw [Option.none_or, Option.none_or, List.find?_filter]
      refine congrArg (namespaces.find? ·) (funext fun name => ?_)
      rw [Bool.eq_iff_iff, decide_eq_true_iff, Bool.not_eq_true', ← Bool.not_eq_true,
        List.contains_iff_mem]
      refine ⟨And.right, fun hp => ⟨fun hmem => ?_, hp⟩⟩
      exact List.find?_eq_none.mp hplatform name hmem hp

/-- A program gets **its libraries**, or the first one that is missing is reported. -/
theorem libraries_eq (a : AllowList) (f : Files) (namespaces : List String) :
    a.libraries f namespaces =
      match (a.platform ++ namespaces).find? (a.isMissing f) with
      | some name => .error (.libraryMissing name ((a.crates.lookup name).getD ""))
      | none => .ok ((a.names namespaces).filterMap a.library?) := by
  rw [libraries, mapM_library, find?_names]
  cases (a.platform ++ namespaces).find? (a.isMissing f) with
  | some name => rfl
  | none => simp [Except.map, List.filterMap_map]

/-! ### Lists that are accepted -/

/-- In a list that is accepted, each library that all programs are linked with **has a path**. -/
theorem isSome_lookup_of_validate (h : a.validate = .ok ()) (hname : name ∈ a.platform) :
    (a.crates.lookup name).isSome := by
  rw [validate] at h
  split at h
  next => cases h
  next =>
    split at h
    next => cases h
    next hnone =>
      have hpath := List.find?_eq_none.mp hnone name hname
      rwa [← Option.not_isNone, Bool.not_eq_true', ← Bool.not_eq_true]

/-- The names of libraries are those that **have a path**. -/
theorem map_name_filterMap_library? (a : AllowList) (names : List String) :
    (names.filterMap a.library?).map (·.name) =
      names.filter fun name => (a.crates.lookup name).isSome := by
  induction names with
  | nil => rfl
  | cons name names ih =>
      rw [List.filterMap_cons, List.filter_cons, library?]
      cases a.crates.lookup name with
      | none => exact ih
      | some path => exact congrArg (name :: ·) ih

/-- A program is linked with **the libraries of all programs**, and then with those that it refers
to. -/
theorem map_name_libraries (h : a.validate = .ok ()) (namespaces : List String) :
    ((a.names namespaces).filterMap a.library?).map (·.name) =
      a.platform ++ namespaces.filter fun name =>
        !a.platform.contains name && (a.crates.lookup name).isSome := by
  rw [map_name_filterMap_library?, names, List.filter_append, List.filter_filter,
    List.filter_eq_self.mpr fun name hname => isSome_lookup_of_validate h hname]
  simp only [Bool.and_comm]

end AllowList

/-! ### Arguments for the compiler -/

namespace Compiler

/-- What the compiler is told about libraries: **one argument for each**, and one for each of their
directories. -/
theorem arguments_eq (c : CompilerConfig) (libraries : List Library) (output : String) :
    arguments c libraries output = arguments c [] output ++
      libraries.flatMap (fun l => ["--extern", l.name ++ "=" ++ l.path]) ++
        (directories libraries).flatMap fun path => ["-L", "dependency=" ++ path] := by
  simp [arguments, directories]

/-- The directories of libraries are **put in order**. -/
theorem directories_eq (libraries : List Library) :
    directories libraries =
      FilePath.insertAll (libraries.filterMap fun l => FilePath.parent? l.path) :=
  rfl

end Compiler

/-! ### What is promised -/

namespace AllowList

variable {a : AllowList} {f : Files} {namespaces : List String}

/-- What is promised of **the libraries** of a program. -/
structure AreLinked (a : AllowList) (namespaces : List String) (libraries : List Library) :
    Prop where
  /-- Those of all programs come first, as listed, and then the allowed ones that it refers to. -/
  names : libraries.map (·.name) = a.platform ++ namespaces.filter fun name =>
    !a.platform.contains name && (a.crates.lookup name).isSome
  /-- Each of them has its path. -/
  paths : ∀ l ∈ libraries, a.crates.lookup l.name = some l.path
  /-- Those of all programs are among them, and those allowed ones that it refers to. -/
  mem_iff : ∀ name, name ∈ libraries.map (·.name) ↔
    name ∈ a.platform ∨ name ∈ namespaces ∧ (a.crates.lookup name).isSome
  /-- Each of them is there once, unless one is listed twice for all programs. -/
  once : (libraries.map (·.name)).Nodup ↔ a.platform.Nodup
  /-- The compiler is told of each of them, in order, and of each directory once. -/
  arguments : ∀ c output, ∃ directories : List String,
    Compiler.arguments c libraries output = Compiler.arguments c [] output ++
      libraries.flatMap (fun l => ["--extern", l.name ++ "=" ++ l.path]) ++
        directories.flatMap (fun path => ["-L", "dependency=" ++ path]) ∧
    directories.Pairwise (FilePath.before · · = true) ∧
    directories.Pairwise (FilePath.components · ≠ FilePath.components ·) ∧
    (∀ path ∈ directories, ∃ l ∈ libraries, FilePath.parent? l.path = some path) ∧
    ∀ l ∈ libraries, ∀ path, FilePath.parent? l.path = some path →
      ∃ directory ∈ directories, FilePath.components directory = FilePath.components path

/-- What is promised of **the answer** to a program: the first library whose file is missing is
reported, or there are all libraries. -/
def IsAnswered (a : AllowList) (f : Files) (namespaces : List String) : Prop :=
  (∃ front name back path, a.platform ++ namespaces = front ++ name :: back ∧
    (∀ earlier ∈ front, a.isMissing f earlier = false) ∧
    a.crates.lookup name = some path ∧ f.isFile path = false ∧
    a.libraries f namespaces = .error (.libraryMissing name path)) ∨
  (∀ name ∈ a.platform ++ namespaces, a.isMissing f name = false) ∧
    ∃ libraries, a.libraries f namespaces = .ok libraries ∧ a.AreLinked namespaces libraries

/-- A library that is **not missing** is linked. -/
theorem areLinked (h : a.validate = .ok ()) (hnamespaces : namespaces.Nodup) :
    a.AreLinked namespaces ((a.names namespaces).filterMap a.library?) where
  names := map_name_libraries h namespaces
  paths := by
    intro l hl
    obtain ⟨name, -, hlibrary⟩ := List.mem_filterMap.mp hl
    obtain ⟨path, hpath, rfl⟩ := Option.map_eq_some_iff.mp hlibrary
    exact hpath
  mem_iff := by
    intro name
    rw [map_name_libraries h, List.mem_append, List.mem_filter, Bool.and_eq_true_iff,
      Bool.not_eq_true', ← Bool.not_eq_true, List.contains_iff_mem]
    by_cases hname : name ∈ a.platform
    · simp [hname]
    · simp [hname]
  once := by
    rw [map_name_libraries h, List.nodup_append]
    refine ⟨And.left, fun hplatform => ⟨hplatform, hnamespaces.filter _, ?_⟩⟩
    rintro name hname other hother rfl
    have hkept := (List.mem_filter.mp hother).2
    rw [List.contains_iff_mem.mpr hname] at hkept
    exact Bool.noConfusion hkept
  arguments := by
    intro c output
    refine ⟨_, Compiler.arguments_eq c _ output, ?_⟩
    rw [Compiler.directories_eq]
    have hordered := FilePath.pairwise_insertAll
      (((a.names namespaces).filterMap a.library?).filterMap fun l => FilePath.parent? l.path)
    refine ⟨hordered, hordered.imp FilePath.components_ne_of_before, fun path hpath => ?_,
      fun l hl path hpath => ?_⟩
    · exact List.mem_filterMap.mp (FilePath.mem_of_mem_insertAll hpath)
    · exact FilePath.exists_mem_insertAll (List.mem_filterMap.mpr ⟨l, hl, hpath⟩)

/-- For every list that is accepted, every program and all files, **libraries are linked** in order,
or the first one that is missing is reported. -/
theorem libraries_are_linked (a : AllowList) (f : Files) (namespaces : List String)
    (hvalid : a.validate = .ok ()) (hordered : namespaces.Pairwise (· < ·)) :
    a.IsAnswered f namespaces := by
  have heq := libraries_eq a f namespaces
  cases hfind : (a.platform ++ namespaces).find? (a.isMissing f) with
  | some name =>
      rw [hfind] at heq
      obtain ⟨hmissing, front, back, hsplit, hfront⟩ := List.find?_eq_some_iff_append.mp hfind
      obtain ⟨path, hpath, hfile⟩ := isMissing_iff.mp hmissing
      left
      refine ⟨front, name, back, path, hsplit, fun earlier hearlier => ?_, hpath, hfile, ?_⟩
      · exact (Bool.not_eq_true' _).mp (hfront earlier hearlier)
      · rw [heq]
        simp only [hpath, Option.getD_some]
  | none =>
      rw [hfind] at heq
      right
      refine ⟨fun name hname => ?_, _, heq, areLinked hvalid (hordered.imp fun hlt => ?_)⟩
      · exact (Bool.not_eq_true _).mp (List.find?_eq_none.mp hfind name hname)
      · exact ne_of_lt hlt

/-- Two libraries, one of which all programs are linked with. -/
def twoLibraries : AllowList :=
  { crates := [("rand", "lib/librand.rlib"), ("serde", "lib/libserde.rlib")],
    platform := ["serde"] }

/-- The files of both libraries. -/
def twoFiles : Files :=
  ⟨.directory [("lib", .directory [("librand.rlib", .file []), ("libserde.rlib", .file [])])], []⟩

/-- A program that refers to **both of them** and to something else is answered. -/
theorem two_libraries_are_linked : twoLibraries.validate = .ok () ∧
    ["rand", "serde", "unknown"].Pairwise (· < ·) ∧
      twoLibraries.IsAnswered twoFiles ["rand", "serde", "unknown"] := by
  have hvalid : twoLibraries.validate = .ok () := by decide
  have hordered : ["rand", "serde", "unknown"].Pairwise (· < ·) := by decide
  exact ⟨hvalid, hordered, libraries_are_linked twoLibraries twoFiles _ hvalid hordered⟩

example : twoLibraries.libraries twoFiles ["rand", "serde", "unknown"] =
    .ok [⟨"serde", "lib/libserde.rlib"⟩, ⟨"rand", "lib/librand.rlib"⟩] := by
  decide +kernel

/-- A library that is listed **twice for all programs**. -/
def repeatedLibrary : AllowList :=
  { crates := [("serde", "libserde.rlib")], platform := ["serde", "serde"] }

/-- The list is accepted, and a program that refers to nothing is linked **with it twice**. -/
theorem platform_library_twice : repeatedLibrary.validate = .ok () ∧
    repeatedLibrary.libraries ⟨.directory [("libserde.rlib", .file [])], []⟩ [] =
      .ok [⟨"serde", "libserde.rlib"⟩, ⟨"serde", "libserde.rlib"⟩] := by
  decide

end AllowList

end CapabilityGate
