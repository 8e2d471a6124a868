import CapabilityGate.Proofs.Capability.PathText
import CapabilityGate.Capability.Descriptor

/-!
# Reading the text of a type

The reader of types is given a depth that bounds how its argument lists nest. What it reads does
not depend on this depth, as long as it is enough for the characters that are read: it is said here
without one, and both ways of saying it are shown to agree.

## Main definitions

* `TypeName.Reads`: a text starts with a type.
* `TypeName.AllPaths`: all paths in a type have some property.

## Main results

* `TypeName.parse_eq_ok_iff`: a text is parsed as the type that it starts with, if nothing follows.
* `TypeName.Reads.allPaths`: the paths that are read are proper and in normal form.
-/

namespace CapabilityGate

open Text

namespace TypeName

/-- The path at the start of a text, in normal form. -/
def pathAt (s : List Char) : String :=
  normalPath (String.ofList ((s.dropWhile isBlank).takeWhile isPathChar))

/-- What stands behind the path at the start of a text. -/
def behindPath (s : List Char) : List Char :=
  ((s.dropWhile isBlank).dropWhile isPathChar).dropWhile isBlank

mutual

/-- A text **starts with a type**, and goes on with the rest. -/
inductive Reads : List Char → TypeName → List Char → Prop
  | bare {s : List Char} (hpath : isProperPath (pathAt s) = true)
      (hopen : (behindPath s).head? ≠ some '<') : Reads s (.mk (pathAt s) []) (behindPath s)
  | applied {s more rest : List Char} {args : List TypeName}
      (hpath : isProperPath (pathAt s) = true) (hopen : behindPath s = '<' :: more)
      (hargs : ReadsArgs more args rest) : Reads s (.mk (pathAt s) args) rest

/-- A text starts with the arguments of a list whose bracket is open, and with the bracket that
closes it. -/
inductive ReadsArgs : List Char → List TypeName → List Char → Prop
  | last {s middle rest : List Char} {t : TypeName} (h : Reads s t middle)
      (hclose : middle.dropWhile isBlank = '>' :: rest) : ReadsArgs s [t] rest
  | more {s middle next rest : List Char} {t : TypeName} {args : List TypeName}
      (h : Reads s t middle) (hcomma : middle.dropWhile isBlank = ',' :: next)
      (hrest : ReadsArgs next args rest) : ReadsArgs s (t :: args) rest

end

/-! ### What is read -/

variable {whole : String} {s rest : List Char} {t : TypeName} {args : List TypeName} {depth : Nat}

/-- The reader in terms of the path at the start of a text. -/
theorem read_succ (whole : String) (depth : Nat) (s : List Char) :
    read whole (depth + 1) s =
      if isProperPath (pathAt s) then
        match behindPath s with
        | '<' :: more =>
          match readArgs whole depth more with
          | .ok (args, rest) => .ok (.mk (pathAt s) args, rest)
          | .error e => .error e
        | rest => .ok (.mk (pathAt s) [], rest)
      else .error (.badPath (String.ofList ((s.dropWhile isBlank).takeWhile isPathChar)) whole) :=
  rfl

/-- What is read at some depth is **what a text starts with**: a type, and arguments of one. -/
theorem reads_of_depth (whole : String) (depth : Nat) :
    (∀ {s rest : List Char} {t : TypeName}, read whole depth s = .ok (t, rest) →
      Reads s t rest) ∧
    ∀ {s rest : List Char} {args : List TypeName}, readArgs whole depth s = .ok (args, rest) →
      ReadsArgs s args rest := by
  induction depth with
  | zero => exact ⟨fun h => by simp [read] at h, fun h => by simp [readArgs] at h⟩
  | succ depth ih =>
      obtain ⟨htype, hargs⟩ := ih
      refine ⟨fun {s rest t} h => ?_, fun {s rest args} h => ?_⟩
      · rw [read_succ] at h
        split at h
        next hpath =>
          split at h
          next more hopen =>
            split at h
            next args rest' hread =>
              cases h
              exact .applied hpath hopen (hargs hread)
            next => cases h
          next hopen =>
            cases h
            refine .bare hpath fun hhead => ?_
            obtain ⟨more, hmore⟩ := List.head?_eq_some_iff.mp hhead
            exact hopen more hmore
        next => cases h
      · rw [readArgs] at h
        split at h
        next => cases h
        next first middle hfirst =>
          split at h
          next next hcomma =>
            split at h
            next more rest' hmore =>
              cases h
              exact .more (htype hfirst) hcomma (hargs hmore)
            next => cases h
          next rest' hclose =>
            cases h
            exact .last (htype hfirst) hclose
          next => cases h

/-! ### How much is read -/

/-- A path that names something has **at least one character**. -/
theorem length_behindPath_lt (hpath : isProperPath (pathAt s) = true) :
    (behindPath s).length < s.length := by
  have hblanks : (s.dropWhile isBlank).length ≤ s.length := (List.dropWhile_sublist _).length_le
  have hbehind : (behindPath s).length ≤ ((s.dropWhile isBlank).dropWhile isPathChar).length :=
    (List.dropWhile_sublist _).length_le
  have hsplit := congrArg List.length
    (List.takeWhile_append_dropWhile (p := isPathChar) (l := s.dropWhile isBlank))
  rw [List.length_append] at hsplit
  have hne : (s.dropWhile isBlank).takeWhile isPathChar ≠ [] := by
    intro hnil
    rw [pathAt, hnil] at hpath
    exact absurd hpath (by decide)
  have hpos := List.length_pos_iff.mpr hne
  omega

mutual

/-- A type that is read **takes something** of the text. -/
theorem Reads.length_lt : ∀ {s rest : List Char} {t : TypeName}, Reads s t rest →
    rest.length < s.length
  | _, _, _, .bare hpath _ => length_behindPath_lt hpath
  | _, _, _, .applied hpath hopen hargs => by
    have hbehind := length_behindPath_lt hpath
    have hmore := hargs.length_lt
    rw [hopen, List.length_cons] at hbehind
    omega

/-- So do arguments. -/
theorem ReadsArgs.length_lt : ∀ {s rest : List Char} {args : List TypeName},
    ReadsArgs s args rest → rest.length < s.length
  | _, _, _, @ReadsArgs.last _ middle _ _ h hclose => by
    have hfirst := h.length_lt
    have hblanks : (middle.dropWhile isBlank).length ≤ middle.length :=
      (List.dropWhile_sublist _).length_le
    rw [hclose, List.length_cons] at hblanks
    omega
  | _, _, _, @ReadsArgs.more _ middle _ _ _ _ h hcomma hrest => by
    have hfirst := h.length_lt
    have hmore := hrest.length_lt
    have hblanks : (middle.dropWhile isBlank).length ≤ middle.length :=
      (List.dropWhile_sublist _).length_le
    rw [hcomma, List.length_cons] at hblanks
    omega

end

mutual

/-- What a text starts with **is read** from it at every depth that is twice the number of
characters that are read. -/
theorem Reads.read_eq : ∀ {depth : Nat} {s rest : List Char} {t : TypeName}, Reads s t rest →
    2 * (s.length - rest.length) ≤ depth → read whole depth s = .ok (t, rest)
  | 0, _, _, _, h, hdepth => by
    have hlength := h.length_lt
    omega
  | depth + 1, s, _, _, .bare hpath hopen, _ => by
    rw [read_succ, if_pos hpath]
    split
    next more hmore => exact absurd (by rw [hmore]; rfl) hopen
    next => rfl
  | depth + 1, s, _, _, .applied hpath hopen hargs, hdepth => by
    have hbehind := length_behindPath_lt hpath
    rw [hopen, List.length_cons] at hbehind
    have hread : readArgs whole depth _ = .ok (_, _) := hargs.readArgs_eq (by omega)
    rw [read_succ, if_pos hpath, hopen]
    simp only [hread]

/-- Arguments are read with **as much depth as they take characters, twice**. -/
theorem ReadsArgs.readArgs_eq : ∀ {depth : Nat} {s rest : List Char} {args : List TypeName},
    ReadsArgs s args rest → 2 * (s.length - rest.length) ≤ depth →
      readArgs whole depth s = .ok (args, rest)
  | 0, _, _, _, h, hdepth => by
    have hlength := h.length_lt
    omega
  | depth + 1, s, _, _, @ReadsArgs.last _ middle rest _ h hclose, hdepth => by
    have hfirst := h.length_lt
    have hblanks : (middle.dropWhile isBlank).length ≤ middle.length :=
      (List.dropWhile_sublist _).length_le
    rw [hclose, List.length_cons] at hblanks
    have hread : read whole depth _ = .ok (_, _) := h.read_eq (by omega)
    rw [readArgs, hread]
    simp only [hclose]
  | depth + 1, s, _, _, @ReadsArgs.more _ middle next rest _ _ h hcomma hrest, hdepth => by
    have hfirst := h.length_lt
    have hmore := hrest.length_lt
    have hblanks : (middle.dropWhile isBlank).length ≤ middle.length :=
      (List.dropWhile_sublist _).length_le
    rw [hcomma, List.length_cons] at hblanks
    have hread : read whole depth _ = .ok (_, _) := h.read_eq (by omega)
    have hargs : readArgs whole depth _ = .ok (_, _) := hrest.readArgs_eq (by omega)
    rw [readArgs, hread]
    simp only [hcomma, hargs]

end

/-- A text is **parsed as a type** when it starts with the type and nothing but blanks follows. -/
theorem parse_eq_ok_iff {text : String} :
    parse text = .ok t ↔ ∃ rest, Reads text.toList t rest ∧ rest.dropWhile isBlank = [] := by
  unfold parse
  constructor
  · intro h
    split at h
    next => cases h
    next u rest hread =>
      split at h
      next hend =>
        cases h
        exact ⟨rest, (reads_of_depth _ _).1 hread, List.isEmpty_iff.mp hend⟩
      next => cases h
  · rintro ⟨rest, hreads, hend⟩
    have hlength := hreads.length_lt
    have hread : read text (2 * text.length + 1) text.toList = .ok (t, rest) := by
      refine hreads.read_eq ?_
      rw [String.length_toList]
      omega
    rw [hread]
    simp [hend]

/-! ### The paths in a type -/

mutual

/-- **All paths** in a type have a property. -/
def AllPaths (P : String → Prop) : TypeName → Prop
  | .mk path args => P path ∧ ArgsAllPaths P args

/-- All paths in several types have a property. -/
def ArgsAllPaths (P : String → Prop) : List TypeName → Prop
  | [] => True
  | t :: rest => t.AllPaths P ∧ ArgsAllPaths P rest

end

/-- A path is **proper** when it is in normal form and each of its names is an identifier. -/
def ProperPath (path : String) : Prop :=
  normalPath path = path ∧ isProperPath path = true

mutual

/-- The paths that are read are **proper**. -/
theorem Reads.allPaths : ∀ {s rest : List Char} {t : TypeName}, Reads s t rest →
    t.AllPaths ProperPath
  | _, _, _, .bare hpath _ => ⟨⟨normalPath_normalPath _, hpath⟩, trivial⟩
  | _, _, _, .applied hpath _ hargs => ⟨⟨normalPath_normalPath _, hpath⟩, hargs.allPaths⟩

/-- All paths in arguments that are read are proper. -/
theorem ReadsArgs.allPaths : ∀ {s rest : List Char} {args : List TypeName},
    ReadsArgs s args rest → ArgsAllPaths ProperPath args
  | _, _, _, .last h _ => ⟨h.allPaths, trivial⟩
  | _, _, _, .more h _ hrest => ⟨h.allPaths, hrest.allPaths⟩

end

mutual

/-- Properties of all paths in a type may be combined. -/
theorem AllPaths.imp {P Q R : String → Prop} (himp : ∀ path, P path → Q path → R path) :
    ∀ {t : TypeName}, t.AllPaths P → t.AllPaths Q → t.AllPaths R
  | .mk _ _, hp, hq => ⟨himp _ hp.1 hq.1, ArgsAllPaths.imp himp hp.2 hq.2⟩

/-- What two properties together give holds of **all paths in arguments** if both do. -/
theorem ArgsAllPaths.imp {P Q R : String → Prop} (himp : ∀ path, P path → Q path → R path) :
    ∀ {ts : List TypeName}, ArgsAllPaths P ts → ArgsAllPaths Q ts → ArgsAllPaths R ts
  | [], _, _ => trivial
  | _ :: _, hp, hq => ⟨AllPaths.imp himp hp.1 hq.1, ArgsAllPaths.imp himp hp.2 hq.2⟩

end

end TypeName

/-! ### Identifiers -/

/-- An identifier is made of **alphanumeric characters and underscores**. -/
theorem isNameChar_of_isIdentifier {name : List Char} (h : isIdentifier name = true) :
    ∀ c ∈ name, (isAlphanumeric c || c == '_') = true := by
  have hstart : ∀ c, isAlphabetic c = true → isAlphanumeric c = true := by
    intro c hc
    rw [isAlphabetic] at hc
    rw [isAlphanumeric]
    split at hc
    next hascii => rw [if_pos hascii, Char.isAlphanum, hc, Bool.true_or]
    next hwide => rw [if_neg hwide, hc, Bool.true_or]
  cases name with
  | nil => exact fun c hc => absurd hc List.not_mem_nil
  | cons first rest =>
      rw [isIdentifier, Bool.and_eq_true, Bool.or_eq_true] at h
      obtain ⟨hfirst, hrest⟩ := h
      intro c hc
      rcases List.mem_cons.mp hc with rfl | hc
      · exact Bool.or_eq_true_iff.mpr (hfirst.imp_left (hstart c))
      · exact List.all_eq_true.mp hrest c hc

/-! ### The names in a descriptor -/

namespace Descriptor

/-- **All names** in a descriptor, that of its method among them, have a property. -/
structure AllNames (P : String → Prop) (d : Descriptor) : Prop where
  /-- All names in the paths of its type have it. -/
  target : d.target.AllPaths fun path => ∀ name ∈ splitPath path, P name
  /-- The name of its method has it. -/
  method : ∀ name ∈ d.method, P name

/-- What is parsed as a descriptor has a type that is parsed, and **an identifier** as its
method. -/
theorem proper_of_parse {text : String} {d : Descriptor} (h : parse text = .ok d) :
    d.target.AllPaths TypeName.ProperPath ∧ ∀ name ∈ d.method, isIdentifier name.toList = true := by
  have hmap : ∀ {text : String} {method : Option String},
      ((TypeName.parse text).map fun t => Descriptor.mk t method) = .ok d →
        d.target.AllPaths TypeName.ProperPath ∧ d.method = method := by
    intro text method h
    cases ht : TypeName.parse text with
    | error e =>
        rw [ht] at h
        cases h
    | ok t =>
        rw [ht] at h
        cases h
        obtain ⟨rest, hreads, -⟩ := TypeName.parse_eq_ok_iff.mp ht
        exact ⟨hreads.allPaths, rfl⟩
  rw [parse] at h
  split at h
  next =>
    obtain ⟨htarget, hmethod⟩ := hmap h
    refine ⟨htarget, fun name hname => ?_⟩
    rw [hmethod] at hname
    cases hname
  next before behind _ =>
    dsimp only at h
    split at h
    next hname =>
      obtain ⟨htarget, hmethod⟩ := hmap h
      refine ⟨htarget, fun name hmem => ?_⟩
      rw [hmethod] at hmem
      cases hmem
      exact hname
    next => cases h

end Descriptor

end CapabilityGate
