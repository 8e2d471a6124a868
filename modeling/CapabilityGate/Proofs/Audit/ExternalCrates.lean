import CapabilityGate.Proofs.Audit.DanglingPaths
import CapabilityGate.Proofs.Audit.DescriptorMeaning

/-!
# External crates

A program uses an external crate where a path starts with a name that its module does not bind: in a
`use` item, an `extern crate` item, or a path that is an expression. The model lists the crates that
are used, but leaves out all names that some module of the program declares as an item or a module,
wherever this module is. So a crate that is used in one module is missing if another one declares
its name.

## Main definitions

* `LooksLikeCrate`: names that a crate may have.
* `SourceFile.DeclaresSomewhere`: some module declares an item or a module of a name.
* `SourceFile.Uses`: a program uses a crate of a name.

## Main results

* `mem_namespaces_iff`: what the model lists.
* `reported_iff_undeclared`: a crate that is used is listed unless its name is declared somewhere.
* `used_crates_missing`: crates that are used and not listed.
-/

namespace CapabilityGate

open Program Route

/-! ### Lists in order -/

/-- An ordered list has **one more member** when it is put in. -/
theorem mem_insertOrdered {s t : String} {xs : List String} :
    s ∈ insertOrdered t xs ↔ s = t ∨ s ∈ xs := by
  induction xs with
  | nil => simp [insertOrdered]
  | cons x xs ih =>
      rw [insertOrdered]
      split
      next heq =>
        rw [beq_iff_eq] at heq
        simp [heq]
      next =>
        split
        next => rw [List.mem_cons]
        next => rw [List.mem_cons, ih, List.mem_cons, or_left_comm]

/-- Putting a list in order **keeps its members**. -/
theorem mem_ordered {s : String} {xs : List String} : s ∈ ordered xs ↔ s ∈ xs := by
  have hfoldl : ∀ done, s ∈ xs.foldl (fun done s => insertOrdered s done) done ↔
      s ∈ xs ∨ s ∈ done := by
    induction xs with
    | nil => simp
    | cons x xs ih =>
        intro done
        rw [List.foldl_cons, ih, mem_insertOrdered, List.mem_cons, or_left_comm, or_assoc]
  rw [ordered, hfoldl]
  simp

/-! ### Names that are declared -/

namespace Names

variable {n : Names} {name : String}

@[simp] theorem locals_update (module : List String) (f : Scope → Scope) (n : Names) :
    (n.update module f).locals = n.locals := by
  rw [update]
  split <;> rfl

@[simp] theorem locals_addImport (module : List String) (name : String) (target : List String)
    (n : Names) : (n.addImport module name target).locals = n.locals := by
  rw [addImport]
  split
  · rfl
  · exact locals_update _ _ n

@[simp] theorem locals_addLeaf (module : List String) (n : Names) (leaf : Import) :
    (n.addLeaf module leaf).locals = n.locals := by
  cases leaf with
  | name name target => exact locals_addImport module name target n
  | glob target => exact locals_update _ _ n

/-- Imports are **no names of items or modules**. -/
theorem locals_foldl_addLeaf (module : List String) (leaves : List Import) (n : Names) :
    (leaves.foldl (addLeaf module) n).locals = n.locals := by
  induction leaves generalizing n with
  | nil => rfl
  | cons leaf rest ih => rw [List.foldl_cons, ih, locals_addLeaf]

/-- Names for types add **no locals**. -/
theorem locals_addAlias (n : Names) (d : Declaration) : (n.addAlias d).locals = n.locals := by
  rw [addAlias]
  split
  · exact locals_update _ _ n
  · rfl

/-- A declaration adds **the name of the item or module** that it declares, if it declares one. -/
theorem mem_locals_declare {d : Declaration} :
    name ∈ (n.declare d).locals ↔
      (d.what = .item name ∨ d.what = .module name) ∨ name ∈ n.locals := by
  obtain ⟨module, what⟩ := d
  cases what with
  | item other => simp [declare, addLocal, eq_comm]
  | module other => simp [declare, addLocal, eq_comm]
  | use global tree => simp [declare, locals_foldl_addLeaf]
  | crate crate_ alias_ => cases alias_ <;> simp [declare]
  | typeAlias alias_ type => simp [declare]

/-- The names of items and modules are those that **some module of the program declares**. -/
theorem mem_locals_iff {p : SourceFile} : name ∈ (Names.ofProgram p).locals ↔
    ∃ module, ⟨module, .item name⟩ ∈ p.declarations ∨ ⟨module, .module name⟩ ∈ p.declarations := by
  have halias : ∀ (ds : List Declaration) (n : Names),
      (ds.foldl addAlias n).locals = n.locals := by
    intro ds
    induction ds with
    | nil => exact fun _ => rfl
    | cons d rest ih =>
        intro n
        rw [List.foldl_cons, ih, locals_addAlias]
  have hdeclare : ∀ (ds : List Declaration) (n : Names), name ∈ (ds.foldl declare n).locals ↔
      (∃ d ∈ ds, d.what = .item name ∨ d.what = .module name) ∨ name ∈ n.locals := by
    intro ds
    induction ds with
    | nil => simp
    | cons d rest ih =>
        intro n
        rw [List.foldl_cons, ih, mem_locals_declare, List.exists_mem_cons_iff, or_left_comm]
        exact or_assoc.symm
  have hempty : Names.empty.locals = [] := rfl
  rw [ofProgram, halias, ofDeclarations, hdeclare, hempty]
  constructor
  · rintro (⟨⟨module, what⟩, hd, rfl | rfl⟩ | hnone)
    · exact ⟨module, Or.inl hd⟩
    · exact ⟨module, Or.inr hd⟩
    · exact absurd hnone List.not_mem_nil
  · rintro ⟨module, hd | hd⟩
    · exact Or.inl ⟨_, hd, Or.inl rfl⟩
    · exact Or.inl ⟨_, hd, Or.inr rfl⟩

end Names

/-! ### Paths that start at a crate -/

/-- A name that **a crate may have**: it starts with a lower case letter of ASCII or an underscore,
and is neither a standard root nor a word for a module nor a primitive type. -/
structure LooksLikeCrate (name : String) : Prop where
  /-- How it starts. -/
  start : Names.startsLower name = true ∨ name.toList.head? = some '_'
  /-- It is no standard root. -/
  root : name ∉ standardRoots
  /-- It is no word for a module. -/
  word : name ∉ pathWords
  /-- It is no primitive type. -/
  primitive : name ∉ primitives

/-- The names that are kept are those that a crate may have and **no module declares**. -/
theorem Names.isCrateRoot_iff {n : Names} {name : String} :
    n.isCrateRoot name = true ↔ LooksLikeCrate name ∧ name ∉ n.locals := by
  have hroots : pathRoots = standardRoots ++ pathWords := rfl
  simp only [isCrateRoot, hroots, Bool.and_eq_true, Bool.not_eq_true', Bool.or_eq_true,
    beq_iff_eq, List.contains_eq_mem, decide_eq_false_iff_not, List.mem_append, not_or]
  constructor
  · rintro ⟨⟨⟨⟨hroot, hword⟩, hprimitive⟩, hlocal⟩, hstart⟩
    exact ⟨⟨hstart, hroot, hword, hprimitive⟩, hlocal⟩
  · rintro ⟨⟨hstart, hroot, hword, hprimitive⟩, hlocal⟩
    exact ⟨⟨⟨⟨hroot, hword⟩, hprimitive⟩, hlocal⟩, hstart⟩

section Candidates

variable {p : SourceFile} {module : List String} {owner : Option TypeName} {first : Step}
  {rest : Route}

/-- A name that a crate may have is no standard root, so a path that starts with it is read **as it
is written**. -/
theorem LooksLikeCrate.literal_eq (h : LooksLikeCrate first.name) :
    Names.literal (first :: rest) = first :: rest := by
  have hroot := h.root
  simp only [standardRoots, List.mem_cons, List.not_mem_nil, or_false, not_or] at hroot
  simp [Names.literal, hroot]

/-- Among the candidates of a route is **the route as it is written**. If it has several names and
starts in lower case it is the first of them. -/
def ReadAsWritten (first : Step) (rest : Route) (candidates : List Route) : Prop :=
  Names.literal (first :: rest) ∈ candidates ∧
    (rest ≠ [] → Names.startsLower first.name = true →
      candidates.head? = some (Names.literal (first :: rest)))

/-- A name that is looked for in globs is read **as it is written** as well. -/
theorem Names.undeclared_readAsWritten (n : Names) (l : Lookup) (module : List String)
    (first : Step) (rest : Route) :
    Paid.Yields (ReadAsWritten first rest) (n.undeclared l module first rest) := by
  have hordered : ∀ found : List Route, Paid.Yields (ReadAsWritten first rest)
      (if !rest.isEmpty && startsLower first.name then
        Pure.pure (literal (first :: rest) :: found)
      else (Pure.pure (found ++ [literal (first :: rest)]) : Paid (List Route))) := by
    intro found
    split
    next => exact .pure ⟨List.mem_cons_self, fun _ _ => rfl⟩
    next hother => exact .pure ⟨by simp, fun hrest hlower => absurd (by simp [hrest, hlower]) hother⟩
  rw [undeclared]
  split
  · exact .of_any hordered
  · exact .of_any hordered

/-- A path whose first name its module does not bind may be **read as it is written**. -/
theorem readAsWritten_of_unbound (hword : first.name ∉ pathWords)
    (hfree : p.boundTo module first.name = []) (hprelude : prelude? first.name = none) :
    ReadAsWritten first rest ((Names.ofProgram p).candidates module (first :: rest) owner) := by
  obtain ⟨himport, hmodule, hitem⟩ := Names.unbound_ofProgram hfree
  have hbudget : Names.lookupBudget = 511 + 1 := rfl
  rw [Names.scopeAt] at himport hmodule hitem
  rw [Names.candidates, Names.candidatesWithin, hbudget, Names.lookup_written,
    Names.writtenRule_name hword]
  simp only [Names.byName, himport, ite_self, hmodule, hitem, hprelude, Bool.false_eq_true,
    if_false]
  exact Names.undeclared_readAsWritten _ _ module first rest _

end Candidates

/-- The path of the type that a route names starts with **the name that the route starts with**. -/
theorem root_of_type {r : Route} {name : String} {rest : List String}
    (hnames : r.map Step.name = name :: rest) (hwords : ∀ n ∈ name :: rest, isWord n = true)
    (hcrate : LooksLikeCrate name) : name ∈ (splitPath r.type.path).take 1 := by
  have hroot := hcrate.root
  simp only [standardRoots, List.mem_cons, List.not_mem_nil, or_false, not_or] at hroot
  have hstandard : standardName name = name := by simp [standardName, hroot]
  have hpath : r.type.path = joinPath (name :: rest) := by
    rw [Route.type, Route.path, hnames]
    exact (normalPath_joinPath hwords).trans (by rw [hstandard])
  rw [hpath, splitPath_joinPath fun n hn => isPart_of_isWord (hwords n hn)]
  exact List.mem_singleton_self name

/-! ### Crates that are used -/

namespace Program.SourceFile

/-- Some module of the program **declares** an item or a module of the name. -/
def DeclaresSomewhere (p : SourceFile) (name : String) : Prop :=
  ∃ module, (∃ kind, p.HasItem module kind name) ∨ p.HasSubmodule module name

/-- A program **uses a crate** of a name: some path of it starts with the name, in an item or as an
expression. Where the path is an expression, called or not, it has two names or more, and its module
does not bind the first one, and neither does the prelude. -/
inductive Uses (p : SourceFile) : String → Prop
  /-- A leaf of a `use` item imports something under a name. -/
  | leaf {module : List String} {attributes : List Part} {global : Bool} {tree : UseTree}
      {alias_ root : String} {rest : List String}
      (henters : p.Enters module (.item (.use attributes global tree)))
      (hleaf : .name alias_ (root :: rest) ∈ tree.imports []) (hnamed : alias_ ≠ "_") :
      Uses p root
  /-- A leaf of a `use` item imports everything. -/
  | glob {module : List String} {attributes : List Part} {global : Bool} {tree : UseTree}
      {root : String} {rest : List String}
      (henters : p.Enters module (.item (.use attributes global tree)))
      (hleaf : .glob (root :: rest) ∈ tree.imports []) : Uses p root
  /-- An item names the crate. -/
  | item {module : List String} {attributes : List Part} {name : Word} {alias_ : Option Word}
      (henters : p.Enters module (.item (.externCrate attributes name alias_))) :
      Uses p name.text
  /-- An expression is a path. -/
  | path {place : Place} {at_ : Position} {path : Path} {root second : String}
      {rest : List String} (hwalks : p.Walks place (.expr (.path at_ path)))
      (hnames : path.names = root :: second :: rest) (hfree : p.boundTo place.module root = [])
      (hprelude : prelude? root = none) : Uses p root
  /-- An expression is a path of a trait, below a type. If the path of the trait may be offered by a
  glob, it has two names or more and starts in lower case. -/
  | trait_ {place : Place} {at_ : Position} {owner : Ty} {position : Nat} {path : Path}
      {root : String} {rest : List String}
      (hwalks : p.Walks place (.expr (.qualified at_ owner (position + 1) path)))
      (hnames : path.names = root :: rest) (hfree : p.boundTo place.module root = [])
      (hprelude : prelude? root = none)
      (hfirst : p.globsIn place.module = [] ∨
        rest.take position ≠ [] ∧ Names.startsLower root = true) : Uses p root

end Program.SourceFile

variable {p : SourceFile} {name : String}

/-- The model lists the names that **paths start with** in items or in call sites, as far as a crate
may have them and no module of the program declares them. -/
theorem mem_namespaces_iff : name ∈ (Model.ofProgram p).namespaces ↔
    ((∃ d ∈ p.declarations, name ∈ Names.rootsOf d) ∨
      ∃ s ∈ (Model.ofProgram p).sites, name ∈ (splitPath s.container.path).take 1) ∧
    LooksLikeCrate name ∧ ¬ p.DeclaresSomewhere name := by
  have hdeclares : name ∈ (Names.ofProgram p).locals ↔ p.DeclaresSomewhere name := by
    rw [Names.mem_locals_iff]
    exact exists_congr fun module =>
      or_congr item_mem_declarations_iff module_mem_declarations_iff
  rw [← hdeclares, ← Names.isCrateRoot_iff]
  simp only [Model.ofProgram, mem_ordered, List.mem_filter, List.mem_append, List.mem_flatMap]

/-- The route of a path starts with **the first name** of the path, and so does the part of the path
in front of any name behind it. -/
theorem exists_routeAt_eq (p : SourceFile) (place : Place) {path : Path} {rest : List String}
    (hnames : path.names = name :: rest) :
    ∃ (first : Step) (more : Route), (Names.ofProgram p).routeAt place path = first :: more ∧
      first.name = name ∧ more.map Step.name = rest := by
  have hsteps := (Names.ofProgram p).map_name_routeAt place path
  rw [hnames] at hsteps
  exact List.map_eq_cons_iff.mp hsteps

/-- A path of several names that its module does not bind makes a call site **at its first
name**. -/
theorem root_of_path {place : Place} {called : Bool} {at_ : Position} {path : Path}
    {second : String} {rest : List String}
    (hmention : (place, Mention.path called at_ path) ∈ p.mentions)
    (hnames : path.names = name :: second :: rest) (hfree : p.boundTo place.module name = [])
    (hprelude : prelude? name = none) (hcrate : LooksLikeCrate name) :
    ∃ s ∈ (Model.ofProgram p).sites, name ∈ (splitPath s.container.path).take 1 := by
  have hwords : ∀ n ∈ name :: second :: rest, isWord n = true := fun n hn =>
    isWord_of_mem_names (hnames ▸ hn)
  obtain ⟨first, more, hroute, rfl, hmore⟩ := exists_routeAt_eq p place hnames
  obtain ⟨front, last, rfl⟩ : ∃ front last, more = front ++ [last] := by
    rcases List.eq_nil_or_concat more with rfl | ⟨front, last, hlast⟩
    · exact nomatch hmore
    · exact ⟨front, last, hlast.trans List.concat_eq_append⟩
  have hwritten : ReadAsWritten first (front ++ [last]) ((Names.ofProgram p).candidatesAt place
      (first :: (front ++ [last]))) := readAsWritten_of_unbound hcrate.word hfree hprelude
  have hcandidate : first :: front ++ [last] ∈ (Names.ofProgram p).candidatesAt place
      ((Names.ofProgram p).routeAt place path) := by
    have hliteral := hwritten.1
    rw [hcrate.literal_eq] at hliteral
    rw [hroute]
    exact hliteral
  have hsite : Names.siteOf (Names.kindOf called) at_ (first :: front ++ [last]) =
      some ⟨Route.type (first :: front), last.name, Names.kindOf called, at_.line,
        at_.column⟩ := by
    rw [Names.siteOf, split?_concat_eq (List.cons_ne_nil _ _)]
    rfl
  have hfront : ∀ n ∈ first.name :: front.map Step.name, isWord n = true := by
    intro n hn
    refine hwords n ?_
    rw [← hmore, List.map_append, ← List.cons_append]
    exact List.mem_append_left _ hn
  refine ⟨⟨Route.type (first :: front), last.name, Names.kindOf called, at_.line, at_.column⟩,
    Names.mem_sitesOfAll (fun bindings => ?_) [] hmention,
    root_of_type (List.map_cons ..) hfront hcrate⟩
  rw [sitesOf_path _ bindings hnames]
  exact List.mem_filterMap.mpr ⟨_, hcandidate, hsite⟩

/-- The path of a trait that its module does not bind makes a call site **at its first name**, if no
glob may offer the trait. -/
theorem root_of_trait {place : Place} {called : Bool} {at_ : Position} {owner : Ty}
    {position : Nat} {path : Path} {rest : List String}
    (hmention : (place, Mention.qualified called at_ owner (position + 1) path) ∈ p.mentions)
    (hnames : path.names = name :: rest) (hfree : p.boundTo place.module name = [])
    (hprelude : prelude? name = none)
    (hfirst : p.globsIn place.module = [] ∨
      rest.take position ≠ [] ∧ Names.startsLower name = true) (hcrate : LooksLikeCrate name) :
    ∃ s ∈ (Model.ofProgram p).sites, name ∈ (splitPath s.container.path).take 1 := by
  have hwords : ∀ n ∈ name :: rest, isWord n = true := fun n hn =>
    isWord_of_mem_names (hnames ▸ hn)
  obtain ⟨first, more, hroute, rfl, hmore⟩ := exists_routeAt_eq p place hnames
  have hcandidate : ((Names.ofProgram p).candidatesAt place
      (((Names.ofProgram p).routeAt place path).take (position + 1))).take 1 =
        [first :: more.take position] := by
    rw [hroute, List.take_succ_cons, Names.candidatesAt]
    rcases hfirst with hglobs | ⟨hrest, hlower⟩
    · rw [candidates_of_unbound hcrate.word hfree hglobs, Route.outside]
      simp only [hprelude]
      rw [hcrate.literal_eq]
      rfl
    · have hwritten : ReadAsWritten first (more.take position)
          ((Names.ofProgram p).candidates place.module (first :: more.take position)
            ((Names.ofProgram p).ownerAt place)) :=
        readAsWritten_of_unbound hcrate.word hfree hprelude
      have hmany : more.take position ≠ [] := by
        intro hnil
        rw [← hmore, ← List.map_take, hnil] at hrest
        exact hrest rfl
      rw [List.take_one, hwritten.2 hmany hlower, hcrate.literal_eq]
      rfl
  obtain ⟨last, hlast⟩ : ∃ last, path.segments.getLast? = some last := by
    cases hsegments : path.segments with
    | nil =>
        rw [Path.names, hsegments] at hnames
        cases hnames
    | cons segment segments => exact ⟨_, List.getLast?_cons⟩
  have htrait : ∀ n ∈ first.name :: (more.take position).map Step.name, isWord n = true := by
    intro n hn
    rw [List.map_take, hmore] at hn
    exact hwords n (List.cons_subset_cons _ (List.take_subset _ _) hn)
  refine ⟨⟨Route.type (first :: more.take position), last.name, Names.kindOf called, at_.line,
    at_.column⟩, Names.mem_sitesOfAll (fun bindings => ?_) [] hmention,
    root_of_type (List.map_cons ..) htrait hcrate⟩
  simp only [Names.sitesOf, Names.sitesOfQualified, hlast, hcandidate]
  exact List.mem_append_left _ (List.mem_singleton_self _)

/-- What is used is **among the names that paths start with**. -/
theorem Program.SourceFile.Uses.root (h : p.Uses name) (hcrate : LooksLikeCrate name) :
    (∃ d ∈ p.declarations, name ∈ Names.rootsOf d) ∨
      ∃ s ∈ (Model.ofProgram p).sites, name ∈ (splitPath s.container.path).take 1 := by
  cases h with
  | leaf henters hleaf hnamed =>
      refine Or.inl ⟨_, mem_declarations_iff.mpr ⟨_, _, henters, List.mem_singleton_self _⟩, ?_⟩
      refine List.mem_flatMap.mpr ⟨_, hleaf, ?_⟩
      simp [Names.rootOfLeaf, hnamed]
  | glob henters hleaf =>
      refine Or.inl ⟨_, mem_declarations_iff.mpr ⟨_, _, henters, List.mem_singleton_self _⟩, ?_⟩
      exact List.mem_flatMap.mpr ⟨_, hleaf, List.mem_singleton_self _⟩
  | item henters =>
      exact Or.inl ⟨_, mem_declarations_iff.mpr ⟨_, _, henters, List.mem_singleton_self _⟩,
        List.mem_singleton_self _⟩
  | path hwalks hnames hfree hprelude =>
      obtain ⟨called, hmentions⟩ := subset_mentions_of_walks hwalks
      exact Or.inr (root_of_path (hmentions (List.mem_singleton_self _)) hnames hfree hprelude
        hcrate)
  | trait_ hwalks hnames hfree hprelude hfirst =>
      obtain ⟨called, hmentions⟩ := subset_mentions_of_walks hwalks
      exact Or.inr (root_of_trait (hmentions (List.mem_singleton_self _)) hnames hfree hprelude
        hfirst hcrate)

/-- A call uses the crate **that the path of its callee starts with**. -/
theorem Program.SourceFile.Uses.call {place : Place} {callee : Expr} {args : List Expr}
    {at_ : Position} {path : Path} {second : String} {rest : List String}
    (hcall : p.Walks place (.expr (.call callee args))) (hcallee : callee.bare = .path at_ path)
    (hnames : path.names = name :: second :: rest) (hfree : p.boundTo place.module name = [])
    (hprelude : prelude? name = none) : p.Uses name := by
  have hwalks := (hcall.child List.mem_cons_self).bare
  rw [hcallee] at hwalks
  exact .path hwalks hnames hfree hprelude

/-- **A crate that is used is reported unless some module of the program declares its name**, be it
another module than the one in which it is used. -/
theorem reported_iff_undeclared (h : p.Uses name) (hcrate : LooksLikeCrate name) :
    name ∈ (Model.ofProgram p).namespaces ↔ ¬ p.DeclaresSomewhere name := by
  rw [mem_namespaces_iff]
  exact ⟨fun hreported => hreported.2.2, fun hnone => ⟨h.root hcrate, hcrate, hnone⟩⟩

/-! ### Programs that use crates -/

/-- The name of an external crate **looks like one**. -/
theorem looksLikeCrate_rand : LooksLikeCrate "rand" :=
  ⟨Or.inl (by decide), by decide, by decide, by decide⟩

/-- The call of `rand::random` at the start of a text. -/
def callOfRandom : Part :=
  callOf [⟨"rand", Eq.refl true⟩, ⟨"random", Eq.refl true⟩]

/-- The tree of `use serde_json::json;`, `extern crate regex;`, `mod local { fn g() {} }` and
`fn f() { rand::random(); }`. -/
def threeCrates : SourceFile :=
  ⟨[], [.use [] false (.under ⟨"serde_json", Eq.refl true⟩ (.name ⟨"json", Eq.refl true⟩)),
    .externCrate [] ⟨"regex", Eq.refl true⟩ none,
    .module ⟨"local", Eq.refl true⟩ [.item (emptyFunction ⟨"g", Eq.refl true⟩)],
    functionOf [callOfRandom]]⟩

/-- The crate that is called in `threeCrates` is reported. -/
theorem called_crate_reported :
    threeCrates.Uses "rand" ∧ LooksLikeCrate "rand" ∧ ¬ threeCrates.DeclaresSomewhere "rand" ∧
      "rand" ∈ (Model.ofProgram threeCrates).namespaces := by
  have hholds : threeCrates.Holds ⟨[], none⟩ callOfRandom :=
    ⟨_, List.mem_of_getElem? (i := 3) rfl, .inside (List.mem_singleton_self _) .here⟩
  have huses : threeCrates.Uses "rand" := .call hholds.walks rfl rfl rfl rfl
  have hdeclared : threeCrates.declarations =
      [⟨[], .use false (.under ⟨"serde_json", Eq.refl true⟩ (.name ⟨"json", Eq.refl true⟩))⟩,
        ⟨[], .crate "regex" none⟩, ⟨[], .module "local"⟩, ⟨["local"], .item "g"⟩,
        ⟨[], .item "f"⟩] := rfl
  have hnone : ¬ threeCrates.DeclaresSomewhere "rand" := by
    rintro ⟨module, hitem | hmodule⟩
    · have hmem := item_mem_declarations_iff.mpr hitem
      simp [hdeclared] at hmem
    · have hmem := module_mem_declarations_iff.mpr hmodule
      simp [hdeclared] at hmem
  exact ⟨huses, looksLikeCrate_rand, hnone,
    (reported_iff_undeclared huses looksLikeCrate_rand).mpr hnone⟩

example : (Model.ofProgram threeCrates).namespaces = ["rand", "regex", "serde_json"] := by
  decide +kernel

/-- The tree of `mod a { fn rand() {} }` and `fn f() { rand::random(); }`. -/
def declaredElsewhere : SourceFile :=
  ⟨[], [.module ⟨"a", Eq.refl true⟩ [.item (emptyFunction ⟨"rand", Eq.refl true⟩)],
    functionOf [callOfRandom]]⟩

/-- The tree of `use rand::Rng as _;`. -/
def namelessImport : SourceFile :=
  ⟨[], [.use [] false (.under ⟨"rand", Eq.refl true⟩
    (.rename ⟨"Rng", Eq.refl true⟩ ⟨"_", Eq.refl true⟩))]⟩

/-- The item `use rand::Rng;`. -/
def importOfRng : Item :=
  .use [] false (.under ⟨"rand", Eq.refl true⟩ (.name ⟨"Rng", Eq.refl true⟩))

/-- The tree of `struct S { a: [u8; { use rand::Rng; 3 }] }`. -/
def importInStructure : SourceFile :=
  ⟨[], [.declaration .structure_ ⟨"S", Eq.refl true⟩ [.group [.type (.other "[u8;{userand::Rng;3}]"
    [.type (.path (pathOf [⟨"u8", Eq.refl true⟩])),
      .expr (.compound .block [.item importOfRng, .expr (.compound .literal [])])])]]]⟩

/-- **Crates that are used are not reported**: if another module declares the name, as in
`declaredElsewhere`; if what is imported has no name, as in `namelessImport`; and if the import
stands in a structure, as in `importInStructure`. In each of these programs, the module in which the
crate is used binds nothing to its name. -/
theorem used_crates_missing :
    LooksLikeCrate "rand" ∧
      (declaredElsewhere.Holds ⟨[], none⟩ callOfRandom ∧
        declaredElsewhere.boundTo [] "rand" = [] ∧
        "rand" ∉ (Model.ofProgram declaredElsewhere).namespaces) ∧
      ((∃ item, namelessImport.Enters [] (.item (.use [] false item)) ∧
          .name "_" ["rand", "Rng"] ∈ item.imports []) ∧
        namelessImport.boundTo [] "rand" = [] ∧
        "rand" ∉ (Model.ofProgram namelessImport).namespaces) ∧
      importInStructure.Holds ⟨[], none⟩ (.item importOfRng) ∧
        importInStructure.boundTo [] "rand" = [] ∧
        "rand" ∉ (Model.ofProgram importInStructure).namespaces := by
  have hcall : declaredElsewhere.Holds ⟨[], none⟩ callOfRandom :=
    ⟨_, List.mem_of_getElem? (i := 1) rfl, .inside (List.mem_singleton_self _) .here⟩
  have hleaf : ∃ item, namelessImport.Enters [] (.item (.use [] false item)) ∧
      .name "_" ["rand", "Rng"] ∈ item.imports [] :=
    ⟨_, ⟨_, List.mem_singleton_self _, .here⟩, List.mem_singleton_self _⟩
  have himport : importInStructure.Holds ⟨[], none⟩ (.item importOfRng) :=
    ⟨_, List.mem_singleton_self _, .inside (List.mem_singleton_self _)
      (.inside (List.mem_singleton_self _) (.inside (List.mem_of_getElem? (i := 1) rfl)
        (.inside List.mem_cons_self .here)))⟩
  refine ⟨looksLikeCrate_rand, ⟨hcall, rfl, ?_⟩, ⟨hleaf, rfl, ?_⟩, himport, rfl, ?_⟩
  all_goals decide +kernel

end CapabilityGate
