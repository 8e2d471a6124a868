import CapabilityGate.Proofs.Audit.DescriptorMeaning
import CapabilityGate.Proofs.Capability.TypeGrammar
import CapabilityGate.Proofs.Resolution.WrittenArguments

/-!
# Paths that are resolved at the root

A text can be resolved as the path of a type that is written at the root of a program. It is read
as a type first, and so it loses what the reading does not keep: the root `core` or `alloc`, which
is read as `std`, and what the names in its generic arguments mean, for the arguments are taken as
they are read. All else means what it means in the program.

## Main definitions

* `WritesType`: characters that write a type out, with its syntax tree.
* `Program.Ty.standard`: a type with the standard root in place of `core` and `alloc`.
* `Program.SourceFile.atRoot`: what a type means at the root of a program.

## Main results

* `WritesType.derives`: what writes a type out is read as a type.
* `resolvePath_of_written`: how the text of a type is resolved, and what the type means.
-/

namespace CapabilityGate

open Text Program Route Names WrittenType

open CapabilityGate.TypeName (Blanks Derives DerivesArgs IsTypeText SpellsPath colonPairs)

/-! ### Types that are written out -/

/-- The characters of a path: its names with two colons between them, and in front of them if it is
global. -/
def pathChars (isGlobal : Bool) (first : Word) (rest : List Word) : List Char :=
  colonPairs isGlobal.toNat ++ (joinPath (first.text :: rest.map Word.text)).toList

/-- All names are **identifiers**. -/
def Identifiers (words : List Word) : Prop :=
  ∀ word ∈ words, isIdentifier word.text.toList = true

instance (words : List Word) : Decidable (Identifiers words) :=
  inferInstanceAs (Decidable (∀ word ∈ words, isIdentifier word.text.toList = true))

mutual

/-- Characters **write a type out**: identifiers with two colons between them, perhaps with types
as arguments in angle brackets, and blanks around each of these. -/
inductive WritesType : List Char → Ty → Prop
  /-- A path without arguments. -/
  | bare {before after : List Char} (isGlobal : Bool) {first : Word} {rest : List Word}
      (hbefore : Blanks before) (hnames : Identifiers (first :: rest)) (hafter : Blanks after) :
      WritesType (before ++ pathChars isGlobal first rest ++ after)
        (.path (.mk isGlobal (segmentsWith [] first rest)))
  /-- A path with arguments at its end. -/
  | applied {before after inner : List Char} {args : List Part} (isGlobal : Bool) {first : Word}
      {rest : List Word} (hbefore : Blanks before) (hnames : Identifiers (first :: rest))
      (hafter : Blanks after) (hargs : WritesArgs inner args) :
      WritesType (before ++ pathChars isGlobal first rest ++ after ++ ('<' :: inner ++ ['>']))
        (.path (.mk isGlobal (segmentsWith args first rest)))

/-- Characters write types out, with commas between them. -/
inductive WritesArgs : List Char → List Part → Prop
  /-- One type. -/
  | last {s gap : List Char} {type : Ty} (h : WritesType s type) (hgap : Blanks gap) :
      WritesArgs (s ++ gap) [.type type]
  /-- A type in front of others. -/
  | more {s gap next : List Char} {type : Ty} {args : List Part} (h : WritesType s type)
      (hgap : Blanks gap) (hnext : WritesArgs next args) :
      WritesArgs (s ++ gap ++ ',' :: next) (.type type :: args)

end

/-- The characters of a path spell **its names, with the root that the first stands for**. -/
theorem spellsPath_pathChars (isGlobal : Bool) {first : Word} {rest : List Word}
    (h : Identifiers (first :: rest)) :
    SpellsPath (pathChars isGlobal first rest)
      (joinPath (standardName first.text :: rest.map Word.text)) := by
  refine .names isGlobal.toNat fun name hname => ?_
  obtain ⟨word, hword, rfl⟩ := List.mem_map.mp (List.map_cons (f := Word.text) ▸ hname)
  exact h word hword

/-- Arguments are types, **one at least**, and so are their meanings. -/
theorem WritesArgs.argumentsOf_ne_nil {s : List Char} {args : List Part} (h : WritesArgs s args)
    (n : Names) (module : List String) (owner : Option TypeName) :
    n.argumentsOf module owner args ≠ [] := by
  cases h with
  | last h hgap =>
      rw [argumentsOf]
      exact List.cons_ne_nil _ _
  | more h hgap hnext =>
      rw [argumentsOf]
      exact List.cons_ne_nil _ _

mutual

/-- What writes a type out **is a type** of the grammar, with the same path but for the root. -/
theorem WritesType.derives : ∀ {s : List Char} {type : Ty}, WritesType s type →
    ∃ isGlobal first rest parts args, type = .path (.mk isGlobal (segmentsWith parts first rest)) ∧
      Identifiers (first :: rest) ∧
      Derives s (.mk (joinPath (standardName first.text :: rest.map Word.text)) args) ∧
      ∀ n module owner, args = [] ↔ argumentsOf n module owner parts = []
  | _, _, .bare isGlobal hbefore hnames hafter =>
    ⟨isGlobal, _, _, [], [], rfl, hnames,
      .bare hbefore (spellsPath_pathChars isGlobal hnames) hafter,
      fun _ _ _ => by rw [argumentsOf]⟩
  | _, _, .applied isGlobal hbefore hnames hafter hargs =>
    have ⟨ts, hne, hts⟩ := hargs.derives
    ⟨isGlobal, _, _, _, ts, rfl, hnames,
      .applied hbefore (spellsPath_pathChars isGlobal hnames) hafter hts,
      fun n module owner => iff_of_false hne (hargs.argumentsOf_ne_nil n module owner)⟩

/-- So do the characters of arguments **some list of types**. -/
theorem WritesArgs.derives : ∀ {s : List Char} {args : List Part}, WritesArgs s args →
    ∃ ts, ts ≠ [] ∧ DerivesArgs s ts
  | _, _, .last h hgap =>
    have ⟨_, _, _, _, _, _, _, h, _⟩ := h.derives
    ⟨_, List.cons_ne_nil _ _, .last h hgap⟩
  | _, _, .more h hgap hnext =>
    have ⟨_, _, _, _, _, _, _, h, _⟩ := h.derives
    have ⟨_, _, hnext⟩ := hnext.derives
    ⟨_, List.cons_ne_nil _ _, .more h hgap hnext⟩

end

/-- A text **writes a type out**, perhaps with blanks behind it. -/
def WritesText (text : String) (type : Ty) : Prop :=
  ∃ s gap, text.toList = s ++ gap ∧ WritesType s type ∧ Blanks gap

/-! ### Roots -/

/-- A word as a root: `std` in place of `core` and `alloc`. -/
def standardWord (word : Word) : Word :=
  if word.text == "core" || word.text == "alloc" then ⟨"std", Eq.refl true⟩ else word

/-- The word for a root is **the name of the root**. -/
theorem text_standardWord (word : Word) : (standardWord word).text = standardName word.text := by
  rw [standardWord, standardName]
  split <;> rfl

/-- A type **with the standard root** in place of `core` and `alloc`. -/
def Program.Ty.standard : Ty → Ty
  | .path (.mk isGlobal (.mk first style args :: rest)) =>
    .path (.mk isGlobal (.mk (standardWord first) style args :: rest))
  | type => type

/-- The root of a type that is a path. -/
def Program.Ty.root? : Ty → Option String
  | .path (.mk _ (.mk first _ _ :: _)) => some first.text
  | _ => none

/-- A path starts with its root when **its first word does**. -/
theorem standard_segmentsWith (isGlobal : Bool) (parts : List Part) (first : Word)
    (rest : List Word) :
    Ty.standard (.path (.mk isGlobal (segmentsWith parts first rest))) =
      .path (.mk isGlobal (segmentsWith parts (standardWord first) rest)) := by
  cases rest <;> rfl

/-- Its root is its first word, **whatever arguments it has**. -/
theorem root?_segmentsWith (isGlobal : Bool) (parts : List Part) (first : Word)
    (rest : List Word) :
    Ty.root? (.path (.mk isGlobal (segmentsWith parts first rest))) = some first.text := by
  cases rest <;> rfl

namespace Program.SourceFile

variable (p : SourceFile)

/-- What a type means that is written **at the root** of a program. -/
def atRoot (type : Ty) : TypeName :=
  (Names.ofProgram p).typeMeaning [] none type

/-- What the generic arguments mean of a type that is written at the root of a program. -/
def argumentsAtRoot : Ty → List TypeName
  | .path (.mk _ segments) => lastArgs ((Names.ofProgram p).stepsOf [] none segments)
  | _ => []

/-- The root module binds the root of a type **as it binds the standard one**: it is not `core` or
`alloc`, or neither of them is bound. -/
def BindsAsStandard (type : Ty) : Prop :=
  ∀ root ∈ ["core", "alloc"], type.root? = some root →
    p.boundTo [] root = [] ∧ p.boundTo [] "std" = []

end Program.SourceFile

/-! ### Paths that are resolved -/

section Resolve

variable {p : SourceFile} (isGlobal : Bool) (parts : List Part) (first : Word) (rest : List Word)

/-- The meaning of a path with arguments is **its first candidate**. -/
theorem exists_atRoot_eq : ∃ r more,
    (ofProgram p).candidates [] ((ofNames (first.text :: rest.map Word.text)).withArgs
      ((ofProgram p).argumentsOf [] none parts)) none = r :: more ∧
      p.atRoot (.path (.mk isGlobal (segmentsWith parts first rest))) = r.type := by
  have hne : (ofProgram p).candidates [] ((ofNames (first.text :: rest.map Word.text)).withArgs
      ((ofProgram p).argumentsOf [] none parts)) none ≠ [] :=
    candidates_ne_nil p [] none (withArgs_ne_nil (List.cons_ne_nil _ _) _)
  obtain ⟨r, more, hcons⟩ := List.exists_cons_of_ne_nil hne
  refine ⟨r, more, hcons, ?_⟩
  rw [Program.SourceFile.atRoot, typeMeaning, stepsOf_segmentsWith, hcons]

/-- What its arguments mean at the root, they mean **without the path**. -/
theorem argumentsAtRoot_segmentsWith :
    p.argumentsAtRoot (.path (.mk isGlobal (segmentsWith parts first rest))) =
      (ofProgram p).argumentsOf [] none parts := by
  rw [Program.SourceFile.argumentsAtRoot, stepsOf_segmentsWith]
  exact lastArgs_withArgs (List.cons_ne_nil _ _) _

/-- A standard root that nothing is bound to is **the same as any other**. -/
theorem candidates_of_free_root {root : String} (hroot : root ∈ standardRoots)
    (hfree : p.boundTo [] root = []) (names : List String) (args : List TypeName) :
    (ofProgram p).candidates [] ((ofNames (root :: names)).withArgs args) none =
      [(ofNames ("std" :: names)).withArgs args] := by
  have hne : (ofNames (root :: names)).withArgs args ≠ [] :=
    withArgs_ne_nil (List.cons_ne_nil _ _) _
  obtain ⟨step, more, hcons⟩ := List.exists_cons_of_ne_nil hne
  have hnames := map_name_withArgs (ofNames (root :: names)) args
  rw [hcons] at hnames
  obtain rfl : step.name = root := (List.cons.inj hnames).1
  rw [hcons, candidates_of_standard hroot hfree, ← hcons, literal_withArgs, literal_ofNames hroot]

/-- A type means **the same with the standard root**, if the root module binds both alike. -/
theorem atRoot_standard
    (h : p.BindsAsStandard (.path (.mk isGlobal (segmentsWith parts first rest)))) :
    p.atRoot (Ty.standard (.path (.mk isGlobal (segmentsWith parts first rest)))) =
      p.atRoot (.path (.mk isGlobal (segmentsWith parts first rest))) := by
  rw [standard_segmentsWith]
  by_cases hroot : first.text ∈ ["core", "alloc"]
  · obtain ⟨hfree, hstd⟩ := h first.text hroot (root?_segmentsWith isGlobal parts first rest)
    have hother : first.text ∈ standardRoots := List.mem_cons_of_mem _ hroot
    have hstandard : (standardWord first).text = "std" := by
      simp only [List.mem_cons, List.not_mem_nil, or_false] at hroot
      rcases hroot with hroot | hroot <;> simp [standardWord, hroot]
    obtain ⟨r, more, hcons, hr⟩ := exists_atRoot_eq isGlobal parts first rest (p := p)
    obtain ⟨s, _, hcons', hs⟩ := exists_atRoot_eq isGlobal parts (standardWord first) rest (p := p)
    rw [candidates_of_free_root hother hfree] at hcons
    rw [hstandard, candidates_of_free_root (by decide) hstd] at hcons'
    rw [hr, hs, ← (List.cons.inj hcons).1, ← (List.cons.inj hcons').1]
  · have hself : standardWord first = first := by
      rw [standardWord, if_neg]
      simpa using hroot
    rw [hself]

/-- The route to a type that is read is **the path of the type**, with the arguments. -/
theorem ofType_standardName (args : List TypeName) :
    ofType (.mk (joinPath (standardName first.text :: rest.map Word.text)) args) =
      (ofNames (standardName first.text :: rest.map Word.text)).withArgs args := by
  have hwords : ∀ name ∈ first.text :: rest.map Word.text, isWord name = true := by
    intro name hname
    obtain ⟨word, -, rfl⟩ := List.mem_map.mp (List.map_cons (f := Word.text) ▸ hname)
    exact word.isWord
  have hparts : ∀ name ∈ standardName first.text :: rest.map Word.text, isPart name = true := by
    intro name hname
    rcases List.mem_cons.mp hname with rfl | hrest
    · rw [← text_standardWord]
      exact isPart_of_isWord (standardWord first).isWord
    · exact isPart_of_isWord (hwords name (List.mem_cons_of_mem _ hrest))
  rw [ofType, TypeName.path, TypeName.args, ofPath, ← normalPath_joinPath hwords,
    normalPath_normalPath, normalPath_joinPath hwords, splitPath_joinPath hparts]

end Resolve

/-- Types with the same path and the same arguments **are the same**. -/
theorem TypeName.eq_of_parts {s t : TypeName} (hpath : s.path = t.path) (hargs : s.args = t.args) :
    s = t := by
  cases s
  cases t
  exact congrArg₂ TypeName.mk hpath hargs

/-- What is read as a type is resolved as **the first candidate** of the path of the type. -/
theorem resolvePath_of_parse (m : Model) {text : String} {t : TypeName}
    (h : TypeName.parse text = .ok t) :
    m.resolvePath text = (m.names.candidates [] (ofType t) none).head?.map Route.type := by
  unfold Model.resolvePath
  rw [h]

/-- **The text of a type is resolved** as the path that it spells means at the root, with the
standard root in place of `core` and `alloc`. If this path has the arguments that are written, they
are in the one as they are read, in the other as they are meant. -/
theorem resolvePath_of_written (p : SourceFile) {text : String} {type : Ty}
    (h : WritesText text type) :
    ∃ t r, TypeName.parse text = .ok t ∧ (Model.ofProgram p).resolvePath text = some r ∧
      r.path = (p.atRoot type.standard).path ∧
      (r = p.atRoot type.standard ∨
        r.args = t.args ∧ (p.atRoot type.standard).args = p.argumentsAtRoot type) ∧
      (t.args = p.argumentsAtRoot type → r = p.atRoot type.standard) ∧
      (p.BindsAsStandard type → p.atRoot type.standard = p.atRoot type) := by
  obtain ⟨s, gap, htext, hs, hgap⟩ := h
  obtain ⟨isGlobal, first, rest, parts, args, rfl, hnames, hderives, hargs⟩ := hs.derives
  have hparse := TypeName.parse_eq_ok_iff_isTypeText.mpr ⟨s, gap, htext, hderives, hgap⟩
  have hcandidates := (ofProgram p).candidates_sameNames []
    (ofNames (standardName first.text :: rest.map Word.text)) (hargs (ofProgram p) [] none) none
  obtain ⟨meant, _, hmeant, hmeaning⟩ :=
    exists_atRoot_eq isGlobal parts (standardWord first) rest (p := p)
  rw [text_standardWord] at hmeant
  rw [hmeant] at hcandidates
  obtain ⟨found, _, hfound, -, hread⟩ := List.forall₂_cons_right_iff.mp hcandidates
  rw [← ofType_standardName] at hread
  have hhead := congrArg List.head? hread
  rw [List.head?_cons] at hhead
  have hresolve : (Model.ofProgram p).resolvePath text = some found.type :=
    (resolvePath_of_parse _ hparse).trans (congrArg (Option.map Route.type) hhead)
  obtain ⟨hpath, htypes⟩ := hfound.type
  rw [← standard_segmentsWith] at hmeaning
  refine ⟨_, found.type, hparse, hresolve, ?_, ?_, ?_, atRoot_standard isGlobal parts first rest⟩
  · rw [hmeaning, hpath]
  · rw [hmeaning, argumentsAtRoot_segmentsWith]
    exact htypes
  · intro hsame
    rcases htypes with heq | ⟨hread, hmeant⟩
    · exact heq.trans hmeaning.symm
    · rw [argumentsAtRoot_segmentsWith] at hsame
      rw [hmeaning]
      exact TypeName.eq_of_parts hpath (hread.trans (hsame.trans hmeant.symm))

/-! ### Texts that are resolved as they mean, and texts that are not -/

/-- A path of one name, with arguments. -/
def typeNamed (name : Word) (args : List Part) : Ty :=
  .path (.mk false (segmentsWith args name []))

/-- One name with another as its argument. -/
def typeOfType (name arg : Word) : Ty :=
  typeNamed name [.type (typeNamed arg [])]

/-- Such a type is written out by the two names, with the second one in angle brackets. -/
theorem writesText_typeOfType {text : String} {name arg : Word}
    (htext : text.toList = name.text.toList ++ ('<' :: arg.text.toList ++ ['>']))
    (hname : isIdentifier name.text.toList = true) (harg : isIdentifier arg.text.toList = true) :
    WritesText text (typeOfType name arg) := by
  have hnone : Blanks [] := fun _ hc => absurd hc List.not_mem_nil
  have hchars (word : Word) : [] ++ pathChars false word [] ++ [] = word.text.toList := by
    simp [pathChars, colonPairs, joinPath]
  have hinner := WritesType.bare false hnone (List.forall_mem_singleton.mpr harg) hnone
  rw [hchars] at hinner
  have houter := WritesType.applied false hnone (List.forall_mem_singleton.mpr hname) hnone
    (.last hinner hnone)
  rw [hchars, List.append_nil, ← htext] at houter
  exact ⟨text.toList, [], (List.append_nil _).symm, houter, hnone⟩

/-- The program `use std::fs::File;`. -/
def fileImported : SourceFile :=
  ⟨[], [.use [] false (.under ⟨"std", Eq.refl true⟩ (.under ⟨"fs", Eq.refl true⟩
    (.name ⟨"File", Eq.refl true⟩)))]⟩

/-- A text whose arguments mean themselves is resolved as **the type that it writes out**. -/
theorem resolvePath_of_bytes :
    WritesText "Vec<u8>" (typeOfType ⟨"Vec", Eq.refl true⟩ ⟨"u8", Eq.refl true⟩) ∧
    (Model.ofProgram fileImported).resolvePath "Vec<u8>" =
      some (fileImported.atRoot (typeOfType ⟨"Vec", Eq.refl true⟩ ⟨"u8", Eq.refl true⟩)) := by
  have hwrites : WritesText "Vec<u8>" (typeOfType ⟨"Vec", Eq.refl true⟩ ⟨"u8", Eq.refl true⟩) :=
    writesText_typeOfType (by decide) (by decide) (by decide)
  have hread : TypeName.parse "Vec<u8>" = .ok (.mk "Vec" [.mk "u8" []]) := by decide +kernel
  have hargs : fileImported.argumentsAtRoot
      (typeOfType ⟨"Vec", Eq.refl true⟩ ⟨"u8", Eq.refl true⟩) = [.mk "u8" []] := by decide +kernel
  refine ⟨hwrites, ?_⟩
  obtain ⟨t, r, hparse, hresolve, -, -, hsame, hroot⟩ :=
    resolvePath_of_written fileImported hwrites
  obtain rfl := Except.ok.inj (hread.symm.trans hparse)
  rw [hresolve, hsame hargs.symm, hroot]
  rintro root hmem hvec
  obtain rfl := Option.some.inj hvec
  exact absurd hmem (by decide)

/-- The program `use a as core;`. -/
def coreImported : SourceFile :=
  ⟨[], [.use [] false (.rename ⟨"a", Eq.refl true⟩ ⟨"core", Eq.refl true⟩)]⟩

/-- The path `core::B`. -/
def pathInCore : Ty :=
  .path (.mk false (segmentsWith [] ⟨"core", Eq.refl true⟩ [⟨"B", Eq.refl true⟩]))

/-- Texts that are **not resolved as the types** that they write out: one with an argument that is
imported, and one with a root that is, but is read as the standard one. -/
theorem texts_resolved_apart :
    (WritesText "Vec<File>" (typeOfType ⟨"Vec", Eq.refl true⟩ ⟨"File", Eq.refl true⟩) ∧
      (Model.ofProgram fileImported).resolvePath "Vec<File>" =
        some (.mk "std::vec::Vec" [.mk "File" []]) ∧
      fileImported.atRoot (typeOfType ⟨"Vec", Eq.refl true⟩ ⟨"File", Eq.refl true⟩) =
        .mk "std::vec::Vec" [.mk "std::fs::File" []]) ∧
    (WritesText "core::B" pathInCore ∧
      (Model.ofProgram coreImported).resolvePath "core::B" = some (.mk "std::B" []) ∧
      coreImported.atRoot pathInCore = .mk "a::B" []) := by
  have hcore : WritesText "core::B" pathInCore := by
    have hnone : Blanks [] := fun _ hc => absurd hc List.not_mem_nil
    have hnames : Identifiers [⟨"core", Eq.refl true⟩, ⟨"B", Eq.refl true⟩] := by decide
    exact ⟨_, [], by decide +kernel, .bare false hnone hnames hnone, hnone⟩
  exact ⟨⟨writesText_typeOfType (by decide) (by decide) (by decide), by decide +kernel,
    by decide +kernel⟩, hcore, by decide +kernel, by decide +kernel⟩

end CapabilityGate
