import CapabilityGate.Proofs.Audit.IndirectTypes
import CapabilityGate.Proofs.Audit.Strictness
import CapabilityGate.Proofs.Capability.WrittenType

/-!
# Descriptors mean what programs mean

A type that is written out stands for the same type in a program and in a descriptor, though it is
looked up along two ways: in a program each path is resolved in its module, in a descriptor the
names of the prelude are written in full and nothing else is looked up. Where the module binds none
of the names that the paths start with, and imports nothing by a glob, both ways lead to the same
tree, however deep the generic arguments nest.

## Main definitions

* `SameType`: types that are the same but for the names of the prelude in them, which are short or
  in full.

## Main results

* `canonical_eq_of_sameType`: such types have one canonical form.
* `candidates_of_unbound`: the one candidate of a path whose first name nothing binds.
* `typeMeaning_tree`: a type that is written out means the canonical form of its name.
* `written_type_is_denied`: a call of a function of such a type is recorded for this type, and
  denied by the texts of the type.
* `written_types_overlooked`: calls that are not recorded so, or not denied so.
-/

namespace CapabilityGate

open Program Route Names

/-! ### Canonical forms -/

mutual

/-- Two types are **the same but for names of the prelude**: a path is short in the one and in full
in the other, or the same in both. -/
def SameType : TypeName → TypeName → Prop
  | .mk p as, .mk q bs =>
    (p = q ∨ prelude? p = some q ∨ prelude? q = some p) ∧ SameTypes as bs

/-- The same for the members of lists, one by one. -/
def SameTypes : List TypeName → List TypeName → Prop
  | [], [] => True
  | a :: as, b :: bs => SameType a b ∧ SameTypes as bs
  | _, _ => False

end

/-- A path has the same full path as the short name for it. -/
theorem fullPath_eq {p q : String} (h : p = q ∨ prelude? p = some q ∨ prelude? q = some p) :
    fullPath p = fullPath q := by
  have hshort : ∀ {p q : String}, prelude? p = some q → fullPath p = fullPath q := by
    intro p q h
    rw [fullPath, fullPath, prelude?_of_prelude h, h]
    rfl
  rcases h with rfl | h | h
  · rfl
  · exact hshort h
  · exact (hshort h).symm

mutual

/-- Types that are the same but for names of the prelude have **one canonical form**. -/
theorem canonical_eq_of_sameType : ∀ {s t : TypeName}, SameType s t →
    Model.canonical s = Model.canonical t
  | .mk p as, .mk q bs, ⟨hpath, hargs⟩ => by
    rw [Model.canonical_mk, Model.canonical_mk, fullPath_eq hpath,
      canonicalAll_eq_of_sameTypes hargs]

theorem canonicalAll_eq_of_sameTypes : ∀ {ss ts : List TypeName}, SameTypes ss ts →
    Model.canonicalAll ss = Model.canonicalAll ts
  | [], [], _ => rfl
  | s :: ss, t :: ts, ⟨hfirst, hrest⟩ => by
    rw [Model.canonicalAll, Model.canonicalAll, canonical_eq_of_sameType hfirst,
      canonicalAll_eq_of_sameTypes hrest]
  | [], _ :: _, h => h.elim
  | _ :: _, [], h => h.elim

end

/-! ### Paths that a module leaves alone -/

/-- A route with the path of a name of the prelude in full; any other route **as it is written**. -/
def Route.outside : Route → Route
  | [] => []
  | first :: rest =>
    match prelude? first.name with
    | some path => substitute (ofPath path) (first :: rest)
    | none => literal (first :: rest)

section Candidates

variable {p : SourceFile} {module : List String} {owner : Option TypeName}

/-- A path has **one candidate** in a module that does not bind its first name, and imports nothing
by a glob. -/
theorem candidates_of_unbound {first : Step} {rest : Route} (hword : first.name ∉ pathWords)
    (hfree : p.boundTo module first.name = []) (hglobs : p.globsIn module = []) :
    (ofProgram p).candidates module (first :: rest) owner = [outside (first :: rest)] := by
  obtain ⟨himport, hmodule, hitem⟩ := unbound_ofProgram hfree
  have hnone : ∀ l : Lookup, (ofProgram p).throughGlobs l module (first :: rest) = pure [] := by
    intro l
    rw [← globs_ofProgram, scopeAt] at hglobs
    rw [throughGlobs]
    cases hscope : (ofProgram p).scope? module with
    | none => rfl
    | some scope =>
        rw [hscope, Option.getD_some] at hglobs
        simp only [hglobs]
        rfl
  have hbudget : lookupBudget = 511 + 1 := rfl
  rw [scopeAt] at himport hmodule hitem
  rw [candidates, candidatesWithin, hbudget, lookup_written, writtenRule_name hword, outside]
  simp only [byName, himport, ite_self, hmodule, hitem, Bool.false_eq_true, if_false]
  cases prelude? first.name with
  | some path => rfl
  | none =>
      simp only [undeclared, hnone, ite_self]
      -- the reading as it is written is the only one, first or last
      cases !rest.isEmpty && startsLower first.name <;> rfl

end Candidates

/-! ### Types that are written out -/

theorem Route.withArgs_nil_ofNames (names : List String) :
    (ofNames names).withArgs [] = ofNames names := by
  induction names with
  | nil => rfl
  | cons name rest ih =>
      cases rest with
      | nil => rfl
      | cons next more => exact congrArg (plainStep name :: ·) ih

/-- A route that is read outside a program goes on **as it is written**. -/
theorem Route.outside_append {route : Route} (h : route ≠ []) (more : Route) :
    outside (route ++ more) = outside route ++ more := by
  obtain ⟨first, rest, rfl⟩ := List.exists_cons_of_ne_nil h
  rw [List.cons_append, outside, outside]
  split
  · simp [substitute]
  · rw [literal, literal]
    split <;> rfl

/-- Arguments are written **behind** the root that is read as the standard one. -/
theorem literal_withArgs (route : Route) (args : List TypeName) :
    literal (route.withArgs args) = (literal route).withArgs args := by
  match route with
  | [] => rfl
  | [step] =>
    rw [withArgs, literal, literal]
    split <;> rfl
  | first :: second :: rest =>
    rw [withArgs, literal, literal]
    · split <;> rfl
    · exact List.cons_ne_nil _ _

namespace WrittenPath

variable (path : WrittenPath) (args : List TypeName)

theorem ofPath_text : ofPath (normalPath path.text) =
    ofNames (standardName path.first.text :: path.rest.map Word.text) := by
  rw [ofPath, normalPath_normalPath, path.splitPath_normalPath_text]

/-- The route along a path starts with the first name of the path, whatever its arguments are. -/
theorem exists_withArgs_names : ∃ (first : Step) (rest : Route),
    (ofNames path.names).withArgs args = first :: rest ∧ first.name = path.first.text := by
  have hne : (ofNames path.names).withArgs args ≠ [] :=
    withArgs_ne_nil (List.cons_ne_nil _ _) args
  obtain ⟨first, rest, hcons⟩ := List.exists_cons_of_ne_nil hne
  have hnames := map_name_withArgs (ofNames path.names) args
  rw [hcons] at hnames
  exact ⟨first, rest, hcons, (List.cons.inj hnames).1⟩

/-- A path from a standard root stays as it is but for the root, which the normal form has too. -/
theorem outside_of_standard (hroot : path.first.text ∈ standardRoots) :
    outside ((ofNames path.names).withArgs args) =
      ofType (.mk (fullPath (normalPath path.text)) args) := by
  have hroots : ∀ root ∈ standardRoots, prelude? root = none ∧ standardName root = "std" := by
    decide
  obtain ⟨hprelude, hstandard⟩ := hroots _ hroot
  have hliteral : outside ((ofNames path.names).withArgs args) =
      literal ((ofNames path.names).withArgs args) := by
    obtain ⟨first, rest, hcons, hfirst⟩ := path.exists_withArgs_names args
    rw [hcons, outside, hfirst, hprelude]
  have hfull : fullPath (normalPath path.text) = normalPath path.text := by
    rw [path.normalPath_text, hstandard, fullPath, prelude?_standard, Option.getD_none]
  rw [hliteral, literal_withArgs, names, literal_ofNames hroot, hfull, ofType, TypeName.path,
    TypeName.args, path.ofPath_text, hstandard]

/-- One identifier is the name of the prelude, in full, or else stays as it is. -/
theorem outside_of_identifier (hroot : path.first.text ∉ standardRoots) :
    outside ((ofNames path.names).withArgs args) =
      ofType (.mk (fullPath (normalPath path.text)) args) := by
  obtain ⟨hrest, -⟩ := path.start.resolve_left hroot
  have hother : path.first.text ≠ "core" ∧ path.first.text ≠ "alloc" := by
    constructor <;> rintro heq <;> exact hroot (heq ▸ by decide)
  have hstandard : standardName path.first.text = path.first.text := by
    simp [standardName, hother.1, hother.2]
  have htext : normalPath path.text = path.first.text := by
    rw [path.normalPath_text, hrest, hstandard]
    rfl
  have hroute : (ofNames path.names).withArgs args = [⟨path.first.text, args⟩] := by
    rw [names, hrest]
    rfl
  have hofPath := path.ofPath_text
  rw [htext, hstandard, hrest, List.map_nil] at hofPath
  rw [hroute, outside, htext, ofType, TypeName.path, TypeName.args, fullPath]
  cases prelude? path.first.text with
  | some full =>
      change (if args.isEmpty then ofPath full else (ofPath full).withArgs args) ++ [] =
        (ofPath full).withArgs args
      rw [List.append_nil]
      split
      next hempty =>
        obtain rfl : args = [] := List.isEmpty_iff.mp hempty
        rw [ofPath, withArgs_nil_ofNames]
      next => rfl
  | none =>
      have hliteral : literal [⟨path.first.text, args⟩] = [⟨path.first.text, args⟩] := by
        simp [literal, hother.1, hother.2]
      rw [Option.getD_none, hofPath]
      exact hliteral

/-- Outside a program, a path that is written out with arguments is the route to the type with the
**full path** and these arguments. -/
theorem outside_names : outside ((ofNames path.names).withArgs args) =
    ofType (.mk (fullPath (normalPath path.text)) args) := by
  by_cases hroot : path.first.text ∈ standardRoots
  · exact path.outside_of_standard args hroot
  · exact path.outside_of_identifier args hroot

end WrittenPath

/-- The segments of a path with generic arguments at its end spell **the route to the type**. -/
theorem stepsOf_segmentsWith (n : Names) (module : List String) (owner : Option TypeName)
    (args : List Part) (first : Word) (rest : List Word) :
    n.stepsOf module owner (WrittenType.segmentsWith args first rest) =
      (ofNames (first.text :: rest.map Word.text)).withArgs (n.argumentsOf module owner args) := by
  induction rest generalizing first with
  | nil =>
      rw [WrittenType.segmentsWith, stepsOf, stepsOf]
      cases args with
      | nil =>
          rw [argumentsOf]
          rfl
      | cons part more => rfl
  | cons next more ih =>
      rw [WrittenType.segmentsWith, stepsOf, ih]
      rfl

section Meaning

variable {p : SourceFile} {module : List String}

/-- A path that is written out with arguments, and goes on behind them, has **one candidate**. -/
theorem WrittenPath.candidates_eq (hglobs : p.globsIn module = []) {path : WrittenPath}
    (hfree : p.boundTo module path.first.text = []) (args : List TypeName) (more : Route)
    (owner : Option TypeName) :
    (ofProgram p).candidates module ((ofNames path.names).withArgs args ++ more) owner =
      [ofType (.mk (fullPath (normalPath path.text)) args) ++ more] := by
  have hword : path.first.text ∉ pathWords := by
    rcases path.start with hroot | ⟨-, hword⟩
    · exact not_mem_pathWords_of_standard hroot
    · exact hword
  obtain ⟨first, rest, hcons, hfirst⟩ := path.exists_withArgs_names args
  have hne : (ofNames path.names).withArgs args ≠ [] := hcons ▸ List.cons_ne_nil first rest
  rw [← path.outside_names, ← outside_append hne, hcons]
  exact candidates_of_unbound (hfirst ▸ hword) (hfirst ▸ hfree) hglobs

mutual

/-- A path that goes on behind a type has **one candidate**: what is behind the type, in the
canonical form of its name. -/
theorem candidates_of_written (hglobs : p.globsIn module = []) (owner : Option TypeName) :
    ∀ {t : WrittenType}, (∀ name ∈ t.firstNames, p.boundTo module name = []) →
      ∀ behind : List Segment, ∃ r : Route, r ≠ [] ∧ r.type = Model.canonical t.name ∧
        (ofProgram p).candidates module
          ((ofProgram p).stepsOf module owner (t.segments ++ behind)) owner =
            [r ++ (ofProgram p).stepsOf module owner behind]
  | .mk path args, hfree, behind => by
    have hpath : p.boundTo module path.first.text = [] := hfree _ (List.mem_cons_self ..)
    have hargs := argumentsOf_parts hglobs owner fun name hname =>
      hfree name (List.mem_cons_of_mem _ hname)
    have hsteps : (ofProgram p).stepsOf module owner (WrittenType.segments (.mk path args)) =
        (ofNames path.names).withArgs
          ((ofProgram p).argumentsOf module owner (WrittenType.parts args)) :=
      stepsOf_segmentsWith ..
    refine ⟨ofType (.mk (fullPath (normalPath path.text))
      ((ofProgram p).argumentsOf module owner (WrittenType.parts args))), ofType_ne_nil _, ?_, ?_⟩
    · rw [type_ofType, WrittenType.name, WrittenType.spelling, TypeName.normal, Model.canonical_mk,
        ← hargs]
      rfl
    · rw [stepsOf_append, hsteps]
      exact WrittenPath.candidates_eq hglobs hpath _ _ owner

/-- Generic arguments mean **the canonical forms of their names**. -/
theorem argumentsOf_parts (hglobs : p.globsIn module = []) (owner : Option TypeName) :
    ∀ {ts : List WrittenType},
      (∀ name ∈ WrittenType.firstNamesOfAll ts, p.boundTo module name = []) →
      (ofProgram p).argumentsOf module owner (WrittenType.parts ts) =
        Model.canonicalAll (TypeName.normalAll (WrittenType.spellings ts))
  | [], _ => by
    rw [WrittenType.parts, argumentsOf]
    rfl
  | t :: rest, hfree => by
    obtain ⟨r, -, htype, hcandidates⟩ := candidates_of_written hglobs owner
      (fun name hname => hfree name (List.mem_append_left _ hname)) []
    have hrest := argumentsOf_parts hglobs owner fun name hname =>
      hfree name (List.mem_append_right _ hname)
    rw [List.append_nil] at hcandidates
    have hfirst : (ofProgram p).typeMeaning module owner (.path (.mk false t.segments)) =
        Model.canonical t.name := by
      rw [typeMeaning_of_candidates hcandidates, stepsOf, List.append_nil, htype]
    rw [WrittenType.parts, argumentsOf, hfirst, hrest]
    rfl

end

/-- A type that is written out **means the canonical form of its name**, in a module that binds none
of its first names and imports nothing by a glob. -/
theorem typeMeaning_tree (hglobs : p.globsIn module = []) (owner : Option TypeName)
    {t : WrittenType} (hfree : ∀ name ∈ t.firstNames, p.boundTo module name = []) :
    (ofProgram p).typeMeaning module owner t.tree = Model.canonical t.name := by
  obtain ⟨r, -, htype, hcandidates⟩ := candidates_of_written hglobs owner hfree []
  rw [List.append_nil] at hcandidates
  rw [WrittenType.tree, typeMeaning_of_candidates hcandidates, stepsOf, List.append_nil, htype]

/-- A path to a function of a type makes **one call site**: of the function, in the canonical form
of the type's name. -/
theorem sitesOf_pathTo {place : Place} (hglobs : p.globsIn place.module = []) {t : WrittenType}
    (hfree : ∀ name ∈ t.firstNames, p.boundTo place.module name = []) (method : Segment)
    (bindings : Bindings) (called : Bool) (at_ : Position) :
    (ofProgram p).sitesOf bindings place (.path called at_ (t.pathTo method)) =
      [⟨Model.canonical t.name, method.name, kindOf called, at_.line, at_.column⟩] := by
  obtain ⟨r, hne, htype, hcandidates⟩ :=
    candidates_of_written hglobs ((ofProgram p).ownerAt place) hfree [method]
  have hlength : 2 ≤ ((ofProgram p).routeAt place (t.pathTo method)).length := by
    have hsegments := List.length_pos_iff.mpr t.segments_ne_nil
    rw [← List.length_map Step.name, map_name_routeAt, Path.names, List.length_map,
      WrittenType.pathTo, Path.segments, List.length_append, List.length_singleton]
    omega
  obtain ⟨word, style, args⟩ := method
  rw [stepsOf, stepsOf] at hcandidates
  rw [sitesOf, sitesOfPath_of_two_le _ _ hlength, candidatesAt, routeAt, routeOf,
    WrittenType.pathTo, Path.segments, hcandidates, List.filterMap_cons, siteOf,
    split?_concat_eq hne, htype]
  rfl

end Meaning

/-! ### Calls of functions of a type -/

/-- **A descriptor means the same type as the program text.** Where a program calls a function of a
type that is written out, in a module that binds none of the first names in it and imports nothing
by a glob, the callee makes one call site: of this function, in the canonical form of what the text
of the type is parsed as. Every text that is parsed as this type, but for names of the prelude that
are short in the one and in full in the other, is that of a descriptor, and so is this text with
`#` and the function behind it, if that is an identifier. A denylist with one of the two rejects the
program. -/
theorem written_type_is_denied {p : SourceFile} {place : Place} {callee : Expr} {args : List Expr}
    {at_ : Position} {t : WrittenType} {method : Segment}
    (hcall : p.Holds place (.expr (.call callee args)))
    (hcallee : callee.bare = .path at_ (t.pathTo method))
    (hfree : ∀ name ∈ t.firstNames, p.boundTo place.module name = [])
    (hglobs : p.globsIn place.module = []) :
    TypeName.parse t.text = .ok t.name ∧
    (place, Mention.path true at_ (t.pathTo method)) ∈ p.mentions ∧
    (∀ bindings, (ofProgram p).sitesOf bindings place (.path true at_ (t.pathTo method)) =
      [⟨Model.canonical t.name, method.name, .path, at_.line, at_.column⟩]) ∧
    ⟨Model.canonical t.name, method.name, .path, at_.line, at_.column⟩ ∈
      (Model.ofProgram p).sites ∧
    ∀ (text : String) (s : TypeName), TypeName.parse text = .ok s → SameType s t.name →
      Descriptor.parse text = .ok ⟨s, none⟩ ∧
      (isIdentifier method.name.toList = true →
        Descriptor.parse (text ++ "#" ++ method.name) = .ok ⟨s, some method.name⟩) ∧
      ∀ denylist : List Descriptor, ⟨s, none⟩ ∈ denylist ∨ ⟨s, some method.name⟩ ∈ denylist →
        (AuditReport.ofProgram p denylist).verdict.rejects = true := by
  have hmention := mem_mentions_of_call hcall hcallee
  have hsites := fun bindings => sitesOf_pathTo hglobs hfree method bindings true at_
  have hmem : ⟨Model.canonical t.name, method.name, .path, at_.line, at_.column⟩ ∈
      (Model.ofProgram p).sites :=
    mem_sitesOfAll (fun bindings => by rw [hsites bindings]; exact List.mem_singleton_self _) []
      hmention
  refine ⟨t.parse_text, hmention, hsites, hmem, fun text s hparse hsame => ?_⟩
  refine ⟨Descriptor.parse_of_type hparse, Descriptor.parse_of_method hparse, ?_⟩
  have hrecords : p.Records (Model.canonical t.name) method.name :=
    ⟨_, hmem, rfl, rfl, CallKind.noConfusion⟩
  have htype : ∀ m : Option String,
      (Descriptor.canonical ⟨s, m⟩).coversType (Model.canonical t.name) = true := by
    intro m
    rw [Descriptor.canonical, Descriptor.coversType, canonical_eq_of_sameType hsame]
    exact instanceOf_self _
  rintro denylist (hdenied | hdenied)
  · exact hrecords.rejects hdenied (htype none) rfl
  · exact hrecords.rejects hdenied (htype _) (by simp)

/-- The path of one name that is no word for a module. -/
def nameAlone (word : Word) (hword : word.text ∉ pathWords)
    (hidentifier : isIdentifier word.text.toList = true) : WrittenPath :=
  ⟨word, [], .inr ⟨rfl, hword⟩, by simpa using hidentifier⟩

/-- The path `Vec`. -/
def vecPath : WrittenPath :=
  nameAlone ⟨"Vec", Eq.refl true⟩ (by decide) (by decide)

/-- The path `alloc::vec::Vec`. -/
def vecInFull : WrittenPath :=
  ⟨⟨"alloc", Eq.refl true⟩, [⟨"vec", Eq.refl true⟩, ⟨"Vec", Eq.refl true⟩], .inl (by decide),
    by decide⟩

/-- A type with `String` as its argument. -/
def ofStrings (path : WrittenPath) : WrittenType :=
  .mk path [.mk (nameAlone ⟨"String", Eq.refl true⟩ (by decide) (by decide)) []]

/-- The call of the function `new` of a type, without arguments, at the start of a text. -/
def newOf (t : WrittenType) : Part :=
  .expr (.call (.path .start (t.pathTo (.mk ⟨"new", Eq.refl true⟩ .none []))) [])

/-- The tree of `fn f() { Vec::<String>::new(); }`. -/
def stringsMade : SourceFile :=
  ⟨[], [functionOf [newOf (ofStrings vecPath)]]⟩

/-- The call in `stringsMade` is recorded for `std::vec::Vec<std::string::String>`, and rejected
where `alloc::vec::Vec<String>` is denied. -/
theorem strings_made_denied :
    (stringsMade.Holds ⟨[], none⟩ (newOf (ofStrings vecPath)) ∧
      (∀ name ∈ (ofStrings vecPath).firstNames, stringsMade.boundTo [] name = []) ∧
      stringsMade.globsIn [] = []) ∧
    (ofStrings vecPath).text = "Vec<String>" ∧
    (ofStrings vecInFull).text = "alloc::vec::Vec<String>" ∧
    ⟨.mk "std::vec::Vec" [.mk "std::string::String" []], "new", .path, 1, 1⟩ ∈
      (Model.ofProgram stringsMade).sites ∧
    Descriptor.parse "alloc::vec::Vec<String>" =
      .ok ⟨.mk "std::vec::Vec" [.mk "String" []], none⟩ ∧
    ∀ denylist : List Descriptor, ⟨.mk "std::vec::Vec" [.mk "String" []], none⟩ ∈ denylist →
      (AuditReport.ofProgram stringsMade denylist).verdict.rejects = true := by
  have hholds : stringsMade.Holds ⟨[], none⟩ (newOf (ofStrings vecPath)) :=
    ⟨_, List.mem_singleton_self _, .inside (List.mem_singleton_self _) .here⟩
  have hfree : ∀ name ∈ (ofStrings vecPath).firstNames, stringsMade.boundTo [] name = [] := by
    have hnames : (ofStrings vecPath).firstNames = ["Vec", "String"] := rfl
    rw [hnames]
    simp only [List.forall_mem_cons]
    exact ⟨rfl, rfl, fun name hname => absurd hname List.not_mem_nil⟩
  have hglobs : stringsMade.globsIn [] = [] := rfl
  have hshort : (ofStrings vecPath).name = .mk "Vec" [.mk "String" []] := by decide
  have hfull : (ofStrings vecInFull).name = .mk "std::vec::Vec" [.mk "String" []] := by decide
  have htext : (ofStrings vecInFull).text = "alloc::vec::Vec<String>" := by decide
  have hcanonical : Model.canonical (ofStrings vecPath).name =
      .mk "std::vec::Vec" [.mk "std::string::String" []] := by decide
  have hsame : SameType (.mk "std::vec::Vec" [.mk "String" []]) (ofStrings vecPath).name := by
    rw [hshort]
    exact ⟨Or.inr (Or.inr (by decide)), ⟨Or.inl rfl, trivial⟩, trivial⟩
  have hparse := (ofStrings vecInFull).parse_text
  rw [htext, hfull] at hparse
  obtain ⟨-, -, -, hsite, hdenied⟩ := written_type_is_denied hholds rfl hfree hglobs
  obtain ⟨hdescriptor, -, hrejects⟩ := hdenied _ _ hparse hsame
  rw [hcanonical] at hsite
  exact ⟨⟨hholds, hfree, hglobs⟩, by decide, htext, hsite, hdescriptor,
    fun denylist hd => hrejects denylist (Or.inl hd)⟩

/-- The type `Vec<u8>`. -/
def vecOfBytes : WrittenType :=
  .mk vecPath [.mk (nameAlone ⟨"u8", Eq.refl true⟩ (by decide) (by decide)) []]

/-- The type `std::vec::Vec<u8>`. -/
def vecOfBytesInFull : WrittenType :=
  .mk ⟨⟨"std", Eq.refl true⟩, [⟨"vec", Eq.refl true⟩, ⟨"Vec", Eq.refl true⟩], .inl (by decide),
    by decide⟩ [.mk (nameAlone ⟨"u8", Eq.refl true⟩ (by decide) (by decide)) []]

/-- The expressions `g::<{ Vec::<u8>::new() }>()`, `<[u8; Vec::<u8>::new()]>::g()`,
`x.g::<{ Vec::<u8>::new() }>()` and `#[a = Vec::<u8>::new()] g()`. -/
def callsApart : List Expr :=
  let g : Word := ⟨"g", Eq.refl true⟩
  let call : List Part := [.group [newOf vecOfBytes]]
  [.call (.path .start (.mk false [.mk g .angle call])) [],
    .call (.qualified .start (.other "[u8;Vec::<u8>::new()]" call) 0 (pathOf [g])) [],
    .method (.path .start (pathOf [⟨"x", Eq.refl true⟩])) g .start call [],
    .attributed call (.call (.path .start (pathOf [g])) [])]

/-- The tokens of `Vec::<u8>::new();`. -/
def newTokens : List Token :=
  [.name ⟨"Vec", Eq.refl true⟩ .start, .mark ':' true .start, .mark ':' false .start,
    .mark '<' false .start, .name ⟨"u8", Eq.refl true⟩ .start, .mark '>' true .start,
    .mark ':' true .start, .mark ':' false .start, .name ⟨"new", Eq.refl true⟩ .start,
    .group .paren [] .start .start, .mark ';' false .start]

/-- The tree of `struct Vec;` and `fn f() { Vec::<u8>::new(); }`. -/
def otherVec : SourceFile :=
  ⟨[], [.declaration .structure_ ⟨"Vec", Eq.refl true⟩ [], functionOf [newOf vecOfBytes]]⟩

/-- **Not every call is recorded for its type.** A call in the generic arguments or the qualified
type of a path that is an expression, behind the name of a method or in the attributes of a call
is passed over, though nothing binds its names. Macros that are nothing but tokens keep no generic
arguments. A short name is not that of the prelude where the module binds it, though it does not
bind what the full name starts with. And a function with a raw name is the method of no
descriptor. -/
theorem written_types_overlooked :
    (∀ e ∈ callsApart,
      ((∀ name ∈ ["Vec", "u8", "std", "core", "alloc"],
          SourceFile.boundTo ⟨[], [functionOf [.expr e]]⟩ [] name = []) ∧
        SourceFile.globsIn ⟨[], [functionOf [.expr e]]⟩ [] = []) ∧
      (AuditReport.ofProgram ⟨[], [functionOf [.expr e]]⟩
        [⟨vecOfBytes.name, none⟩]).verdict.rejects = false) ∧
    (Model.ofProgram ⟨[], [functionOf [.invoke (.mk ["m"] false newTokens .raw)]]⟩).sites =
      [⟨.mk "std::vec" [], "Vec", .macroBody, 1, 1⟩] ∧
    (SameType vecOfBytesInFull.name vecOfBytes.name ∧
      (∀ name ∈ vecOfBytesInFull.firstNames, otherVec.boundTo [] name = []) ∧
      otherVec.globsIn [] = [] ∧
      (AuditReport.ofProgram otherVec
        [⟨vecOfBytesInFull.name, none⟩]).verdict.rejects = false) ∧
    ∀ d : Descriptor, Descriptor.parse (vecOfBytes.text ++ "#" ++ "r#loop") ≠ .ok d := by
  have hshort : vecOfBytes.name = .mk "Vec" [.mk "u8" []] := by decide
  have hfull : vecOfBytesInFull.name = .mk "std::vec::Vec" [.mk "u8" []] := by decide
  refine ⟨by decide, by decide +kernel, ⟨?_, by decide, rfl, by decide⟩,
    Descriptor.parse_ne_ok_of_hash (by decide)⟩
  rw [hshort, hfull]
  exact ⟨Or.inr (Or.inr (by decide)), ⟨Or.inl rfl, trivial⟩, trivial⟩

end CapabilityGate
