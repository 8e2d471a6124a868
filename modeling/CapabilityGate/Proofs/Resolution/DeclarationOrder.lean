import Mathlib.Data.List.Forall2
import CapabilityGate.Proofs.Resolution.AlikeNames

/-!
# The order of declarations

The scopes of a program are filled by its declarations, one after another, and then by its names
for types. Items and modules are only counted, so their order leaves no trace. Of several imports
of a name the last one counts; globs are gone through in order; and what a name for a type stands
for is looked up among the names that are there at its turn.

## Main definitions

* `SourceFile.globsIn`: the targets of the globs of a module, in order.
* `Declaration.opens`: the modules that a declaration makes a scope for.
* `KeepsNames`: a rearrangement that leaves these three as they are.

## Main results

* `Names.globs_ofProgram`, `Names.isSome_scope?_ofProgram`: what the scopes of a program hold,
  read off its declarations.
* `KeepsNames.alike`: the names of such a rearrangement are alike.
* `KeepsNames.of_in_order`: imports and names for types that stand in the same order are enough.
-/

namespace CapabilityGate

open Program

/-! ### Globs and scopes, read off the declarations -/

/-- The target of a leaf that is a glob. -/
def globOfLeaf : Import → Option Route
  | .glob target => some (.ofNames target)
  | .name _ _ => none

/-- The targets of the globs in a declaration. -/
def globsOf (d : Declaration) : List Route :=
  match d.what with
  | .use _ tree => (tree.imports []).filterMap globOfLeaf
  | _ => []

/-- The targets of the globs that declarations add to a module, in order. -/
def globsBy (ds : List Declaration) (module : List String) : List Route :=
  ds.flatMap fun d => if d.module = module then globsOf d else []

/-- The targets of the **globs in a module** of a program, in order. -/
def Program.SourceFile.globsIn (p : SourceFile) (module : List String) : List Route :=
  globsBy p.declarations module

/-- Whether a leaf of a `use` item adds anything to the module it stands in. -/
def isAdded : Import → Bool
  | .name name target => !(name == "_" || target.isEmpty)
  | .glob _ => true

/-- Whether a declaration is a name for a type. -/
def Program.Declaration.isTypeAlias (d : Declaration) : Bool :=
  match d.what with
  | .typeAlias _ _ => true
  | _ => false

/-- Whether a declaration is a `use` item or an external crate. -/
def Program.Declaration.isImport (d : Declaration) : Bool :=
  match d.what with
  | .use _ _ | .crate _ _ => true
  | _ => false

/-- The modules that a declaration makes a **scope** for, if they have none. -/
def Program.Declaration.opens (d : Declaration) : List (List String) :=
  match d.what with
  | .item _ | .typeAlias _ _ => [d.module]
  | .module name => [d.module, d.module ++ [name]]
  | .use _ tree => if (tree.imports []).any isAdded then [d.module] else []
  | .crate name (some alias_) => if isAdded (.name alias_ [name]) then [d.module] else []
  | .crate _ none => []

namespace Names

variable {n : Names} {module : List String}

/-- A change of one scope in a list leaves **the same scopes there**. -/
theorem isSome_lookup_map (scopes : List (List String × Scope)) (module other : List String)
    (f : Scope → Scope) :
    ((scopes.map fun (m, s) => (m, if m == module then f s else s)).lookup other).isSome =
      (scopes.lookup other).isSome := by
  rw [lookup_map_update, Option.isSome_map]

/-- A change of one scope makes **a scope for its module** and for no other one. -/
theorem isSome_scope?_update (n : Names) (target module : List String) (f : Scope → Scope) :
    ((n.update target f).scope? module).isSome = true ↔
      (n.scope? module).isSome = true ∨ module = target := by
  rw [update]
  split
  next htarget =>
    rw [scope?, isSome_lookup_map]
    refine ⟨Or.inl, ?_⟩
    rintro (h | rfl)
    · exact h
    · exact htarget
  next htarget =>
    rw [scope?, List.lookup_append, Option.isSome_or, Bool.or_eq_true]
    refine or_congr_right ?_
    rw [List.lookup_cons]
    by_cases h : module = target
    · simp [h]
    · have hne : (module == target) = false := by simpa using h
      simp [hne, h]

/-- A leaf that is added makes a scope **for its module**. -/
theorem isSome_scope?_addLeaf (n : Names) (target module : List String) (i : Import) :
    ((n.addLeaf target i).scope? module).isSome = true ↔
      (n.scope? module).isSome = true ∨ isAdded i = true ∧ module = target := by
  cases i with
  | glob above => simp [addLeaf, isSome_scope?_update, isAdded]
  | name alias_ path =>
      rw [addLeaf, addImport, isAdded]
      split
      next h => simp [h]
      next h => simp [h, isSome_scope?_update]

/-- So do several leaves, if **one of them** is added. -/
theorem isSome_scope?_foldl_addLeaf (target module : List String) (is : List Import) (n : Names) :
    ((is.foldl (addLeaf target) n).scope? module).isSome = true ↔
      (n.scope? module).isSome = true ∨ is.any isAdded = true ∧ module = target := by
  induction is generalizing n with
  | nil => simp
  | cons i rest ih =>
      rw [List.foldl_cons, ih, isSome_scope?_addLeaf, List.any_cons, Bool.or_eq_true, or_and_right,
        or_assoc]

/-- A declaration that is no name for a type makes **the scopes that it opens**. -/
theorem isSome_scope?_declare (n : Names) (d : Declaration) (module : List String) :
    ((n.declare d).scope? module).isSome = true ↔
      (n.scope? module).isSome = true ∨ d.isTypeAlias = false ∧ module ∈ d.opens := by
  obtain ⟨target, what⟩ := d
  have hlocal : ∀ name, (n.addLocal name).scope? module = n.scope? module := fun _ => rfl
  cases what with
  | item x => simp [declare, isSome_scope?_update, hlocal, Declaration.isTypeAlias,
      Declaration.opens]
  | module x =>
      simp only [declare, isSome_scope?_update, hlocal, Declaration.isTypeAlias,
        Declaration.opens, List.mem_cons, List.not_mem_nil, or_false, true_and, or_assoc]
  | use global tree =>
      simp only [declare, isSome_scope?_foldl_addLeaf, Declaration.isTypeAlias, Declaration.opens,
        true_and]
      split <;> simp [*]
  | crate x alias_ =>
      cases alias_ with
      | none => simp [declare, Declaration.isTypeAlias, Declaration.opens]
      | some alias_ =>
          have hleaf := isSome_scope?_addLeaf n target module (.name alias_ [x])
          rw [addLeaf] at hleaf
          simp only [declare, hleaf, Declaration.isTypeAlias, Declaration.opens, true_and]
          split <;> simp [*]
  | typeAlias x type => simp [declare, Declaration.isTypeAlias]

/-- A name for a type makes a scope for **the module it stands in**. -/
theorem isSome_scope?_addAlias (n : Names) (d : Declaration) (module : List String) :
    ((n.addAlias d).scope? module).isSome = true ↔
      (n.scope? module).isSome = true ∨ d.isTypeAlias = true ∧ module ∈ d.opens := by
  obtain ⟨target, what⟩ := d
  cases what <;>
    simp [addAlias, isSome_scope?_update, Declaration.isTypeAlias, Declaration.opens]

/-- What each step of a fold adds, the whole fold **adds for some member**. -/
theorem isSome_scope?_foldl {step : Names → Declaration → Names} {adds : Declaration → Prop}
    (hstep : ∀ n d, ((step n d).scope? module).isSome = true ↔
      (n.scope? module).isSome = true ∨ adds d) (ds : List Declaration) (n : Names) :
    ((ds.foldl step n).scope? module).isSome = true ↔
      (n.scope? module).isSome = true ∨ ∃ d ∈ ds, adds d := by
  induction ds generalizing n with
  | nil => simp
  | cons d rest ih =>
      rw [List.foldl_cons, ih, hstep, or_assoc]
      simp only [List.mem_cons, exists_eq_or_imp]

/-- The modules of a program that **have a scope**: the root, and those that a declaration makes
one for. -/
theorem isSome_scope?_ofProgram (p : SourceFile) (module : List String) :
    ((ofProgram p).scope? module).isSome = true ↔
      module = [] ∨ ∃ d ∈ p.declarations, module ∈ d.opens := by
  have hempty : (Names.empty.scope? module).isSome = true ↔ module = [] := by
    cases module <;> simp [scope?, Names.empty, List.lookup_cons]
  rw [ofProgram, isSome_scope?_foldl fun n d => isSome_scope?_addAlias n d module, ofDeclarations,
    isSome_scope?_foldl fun n d => isSome_scope?_declare n d module, hempty, or_assoc,
    ← exists_or]
  refine or_congr_right (exists_congr fun d => ?_)
  cases d.isTypeAlias <;> simp

/-- A leaf that is a glob comes **behind the globs** of its module. -/
theorem globs_addLeaf (n : Names) (target module : List String) (i : Import) :
    ((n.addLeaf target i).scopeAt module).globs =
      (n.scopeAt module).globs ++ if target = module then (globOfLeaf i).toList else [] := by
  cases i with
  | glob above =>
      rw [addLeaf, scopeAt_update]
      by_cases h : target = module
      · rw [if_pos h, if_pos h.symm]
        rfl
      · rw [if_neg h, if_neg (Ne.symm h), List.append_nil]
  | name alias_ path =>
      rw [addLeaf, addImport, globOfLeaf, Option.toList_none, ite_self, List.append_nil]
      split
      · rfl
      · rw [scopeAt_update]
        split <;> rfl

/-- So do all globs among several leaves, **in order**. -/
theorem globs_foldl_addLeaf (target module : List String) (is : List Import) (n : Names) :
    ((is.foldl (addLeaf target) n).scopeAt module).globs =
      (n.scopeAt module).globs ++ if target = module then is.filterMap globOfLeaf else [] := by
  induction is generalizing n with
  | nil => simp
  | cons i rest ih =>
      rw [List.foldl_cons, ih, globs_addLeaf, List.append_assoc]
      by_cases h : target = module
      · rw [if_pos h, if_pos h, if_pos h, List.filterMap_cons]
        cases globOfLeaf i <;> rfl
      · rw [if_neg h, if_neg h, if_neg h, List.append_nil]

/-- A declaration adds **its globs** to its module. -/
theorem globs_declare (n : Names) (d : Declaration) (module : List String) :
    ((n.declare d).scopeAt module).globs =
      (n.scopeAt module).globs ++ if d.module = module then globsOf d else [] := by
  obtain ⟨target, what⟩ := d
  cases what with
  | item x =>
      simp only [declare, globsOf, scopeAt_update, scopeAt_addLocal, ite_self, List.append_nil]
      split <;> rfl
  | module x =>
      simp only [declare, globsOf, scopeAt_update, scopeAt_addLocal, ite_self, List.append_nil,
        id_eq]
      split <;> rfl
  | use global tree => exact globs_foldl_addLeaf target module (tree.imports []) n
  | crate x alias_ =>
      cases alias_ with
      | none => simp [declare, globsOf]
      | some alias_ =>
          have hleaf := globs_addLeaf n target module (.name alias_ [x])
          rw [globOfLeaf, Option.toList_none] at hleaf
          exact hleaf
  | typeAlias x type => simp [declare, globsOf]

/-- The names that a program declares hold **the globs of its declarations**, in order. -/
theorem globs_ofDeclarations (ds : List Declaration) (module : List String) :
    ((ofDeclarations ds).scopeAt module).globs = globsBy ds module := by
  have hfold : ∀ (ds : List Declaration) (n : Names),
      ((ds.foldl declare n).scopeAt module).globs =
        (n.scopeAt module).globs ++ globsBy ds module := by
    intro ds
    induction ds with
    | nil => intro n; simp [globsBy]
    | cons d rest ih =>
        intro n
        rw [List.foldl_cons, ih, globs_declare, List.append_assoc]
        rfl
  rw [ofDeclarations, hfold, scopeAt_empty]
  rfl

/-- Names for types change **nothing but imports**. -/
theorem scopeAt_foldl_addAlias (ds : List Declaration) (n : Names) (module : List String) :
    ((ds.foldl addAlias n).scopeAt module).globs = (n.scopeAt module).globs ∧
      ((ds.foldl addAlias n).scopeAt module).items = (n.scopeAt module).items ∧
      ((ds.foldl addAlias n).scopeAt module).modules = (n.scopeAt module).modules := by
  induction ds generalizing n with
  | nil => exact ⟨rfl, rfl, rfl⟩
  | cons d rest ih =>
      obtain ⟨target, what⟩ := d
      cases what with
      | typeAlias name type =>
          obtain ⟨hglobs, hitems, hmodules⟩ := ih (n.addAlias ⟨target, .typeAlias name type⟩)
          rw [List.foldl_cons, hglobs, hitems, hmodules, addAlias, scopeAt_update]
          split <;> exact ⟨rfl, rfl, rfl⟩
      | _ => exact ih n

end Names

/-! ### Rearranged declarations -/

/-- A module binds a name **as one of its declarations does**. -/
theorem mem_boundBy {ds : List Declaration} {module : List String} {name : String} {b : Binding} :
    b ∈ boundBy ds module name ↔ ∃ d ∈ ds, d.module = module ∧ (name, b) ∈ bindingsOf d := by
  rw [boundBy, List.mem_flatMap]
  refine exists_congr fun d => and_congr_right' ?_
  split
  next h => simp [bindingsUnder, h]
  next h => simp [h]

variable {p q : SourceFile}

/-- Rearranged declarations bind the same, names for types apart. -/
theorem Program.Declaration.Rearranged.bindings_iff {d e : Declaration} (h : d.Rearranged e)
    {name : String} {b : Binding} (hb : ∀ type, b ≠ .alias_ type) (module : List String) :
    (d.module = module ∧ (name, b) ∈ bindingsOf d) ↔
      e.module = module ∧ (name, b) ∈ bindingsOf e := by
  cases h with
  | same => exact Iff.rfl
  | typeAlias htype => simp [bindingsOf, hb]

/-- A rearranged declaration makes scopes for **the same modules**. -/
theorem Program.Declaration.Rearranged.opens_eq {d e : Declaration} (h : d.Rearranged e) :
    d.opens = e.opens := by
  cases h <;> rfl

/-- It is a name for a type **if the other one is**. -/
theorem Program.Declaration.Rearranged.isTypeAlias_eq {d e : Declaration} (h : d.Rearranged e) :
    d.isTypeAlias = e.isTypeAlias := by
  cases h <;> rfl

/-- Rearranged programs bind the same, names for types apart. -/
theorem Program.SourceFile.Rearranged.boundTo_iff (h : p.Rearranged q) (module : List String)
    (name : String) {b : Binding} (hb : ∀ type, b ≠ .alias_ type) :
    b ∈ p.boundTo module name ↔ b ∈ q.boundTo module name := by
  rw [SourceFile.boundTo, SourceFile.boundTo, mem_boundBy, mem_boundBy]
  exact h.declared.exists_iff fun d e hde => hde.bindings_iff hb module

/-- Rearranged programs give the same names to types. -/
theorem Program.SourceFile.Rearranged.alias_iff (h : p.Rearranged q) (module : List String)
    (name : String) :
    (∃ type, Binding.alias_ type ∈ p.boundTo module name) ↔
      ∃ type, Binding.alias_ type ∈ q.boundTo module name := by
  have hbound : ∀ p : SourceFile, (∃ type, Binding.alias_ type ∈ p.boundTo module name) ↔
      ∃ d ∈ p.declarations, d.module = module ∧
        ∃ type, (name, Binding.alias_ type) ∈ bindingsOf d := by
    intro p
    simp only [SourceFile.boundTo, mem_boundBy]
    constructor
    · rintro ⟨type, d, hd, hmodule, hmem⟩
      exact ⟨d, hd, hmodule, type, hmem⟩
    · rintro ⟨d, hd, hmodule, type, hmem⟩
      exact ⟨type, d, hd, hmodule, hmem⟩
  rw [hbound, hbound]
  refine h.declared.exists_iff fun d e hde => ?_
  cases hde with
  | same => exact Iff.rfl
  | typeAlias htype => simp [bindingsOf]

/-! ### Rearrangements that keep the names -/

/-- A rearrangement **keeps the names** of a program when what depends on order comes out the
same. -/
structure KeepsNames (p q : SourceFile) : Prop where
  /-- Of several imports of a name in a module, the last one is the same. -/
  imports : ∀ module name, ((p.boundTo module name).filterMap Binding.target?).getLast? =
    ((q.boundTo module name).filterMap Binding.target?).getLast?
  /-- The globs of a module stand in the same order. -/
  globs : ∀ module, p.globsIn module = q.globsIn module
  /-- A name for a type stands for the same type. -/
  aliases : ∀ module name type, Binding.alias_ type ∈ p.boundTo module name →
    ((Names.ofProgram p).scopeAt module).import? name =
      ((Names.ofProgram q).scopeAt module).import? name

/-- What a scope imports under a name is the last of the imports that it shows. -/
theorem Scope.Shows.import?_eq {s : Scope} {name : String} {bs : List Binding}
    (h : s.Shows name bs) : s.import? name = (bs.filterMap Binding.target?).getLast? := by
  rw [import?_eq_head?, h.targets, List.head?_reverse]

/-- Before names for types are added, rearrangements that keep imports and globs have **alike
names**. -/
theorem Names.alike_ofDeclarations (h : p.Rearranged q)
    (himports : ∀ module name, ((p.boundTo module name).filterMap Binding.target?).getLast? =
      ((q.boundTo module name).filterMap Binding.target?).getLast?)
    (hglobs : ∀ module, p.globsIn module = q.globsIn module) :
    (ofDeclarations p.declarations).Alike (ofDeclarations q.declarations) := by
  refine ⟨fun module => ?_, fun module => ⟨fun name => ?_, ?_, fun name => ?_, fun name => ?_⟩⟩
  · rw [Bool.eq_iff_iff, ofDeclarations, ofDeclarations,
      isSome_scope?_foldl fun n d => isSome_scope?_declare n d module,
      isSome_scope?_foldl fun n d => isSome_scope?_declare n d module]
    refine or_congr_right (h.declared.exists_iff fun d e hde => ?_)
    rw [hde.isTypeAlias_eq, hde.opens_eq]
  · rw [(shows_ofDeclarations p.declarations module name).import?_eq,
      (shows_ofDeclarations q.declarations module name).import?_eq]
    exact himports module name
  · rw [globs_ofDeclarations, globs_ofDeclarations]
    exact hglobs module
  · rw [Bool.eq_iff_iff, List.contains_iff_mem, List.contains_iff_mem,
      (shows_ofDeclarations p.declarations module name).item,
      (shows_ofDeclarations q.declarations module name).item]
    exact h.boundTo_iff module name fun type => Binding.noConfusion
  · rw [Bool.eq_iff_iff, List.contains_iff_mem, List.contains_iff_mem,
      (shows_ofDeclarations p.declarations module name).module,
      (shows_ofDeclarations q.declarations module name).module]
    exact h.boundTo_iff module name fun type => Binding.noConfusion

/-- A rearrangement that keeps the names of a program has **alike names**. -/
theorem KeepsNames.alike (hkeeps : KeepsNames p q) (h : p.Rearranged q) :
    (Names.ofProgram p).Alike (Names.ofProgram q) := by
  have hbefore := Names.alike_ofDeclarations h hkeeps.imports hkeeps.globs
  refine ⟨fun module => ?_, fun module => ?_⟩
  · rw [Bool.eq_iff_iff, Names.isSome_scope?_ofProgram, Names.isSome_scope?_ofProgram]
    refine or_congr_right (h.declared.exists_iff fun d e hde => ?_)
    rw [hde.opens_eq]
  · obtain ⟨hglobs, hitems, hmodules⟩ := Names.scopeAt_foldl_addAlias p.declarations
      (.ofDeclarations p.declarations) module
    obtain ⟨hglobs', hitems', hmodules'⟩ := Names.scopeAt_foldl_addAlias q.declarations
      (.ofDeclarations q.declarations) module
    have hscope := hbefore.scopeAt module
    rw [← Names.ofProgram] at hglobs hitems hmodules hglobs' hitems' hmodules'
    refine ⟨fun name => ?_, ?_, fun name => ?_, fun name => ?_⟩
    -- a name for a type hides the imports of that name, so the two are told apart first
    · by_cases htype : ∃ type, Binding.alias_ type ∈ p.boundTo module name
      · obtain ⟨type, htype⟩ := htype
        exact hkeeps.aliases module name type htype
      · have htype' := mt (h.alias_iff module name).mpr htype
        rw [(Names.shows_ofProgram (not_exists.mp htype)).import?_eq,
          (Names.shows_ofProgram (not_exists.mp htype')).import?_eq]
        exact hkeeps.imports module name
    · rw [hglobs, hglobs', hscope.globs]
    · rw [hitems, hitems', hscope.items]
    · rw [hmodules, hmodules', hscope.modules]

/-! ### Declarations that stay in order -/

/-- Scopes that are alike are so **with the same import** added to both. -/
theorem Scope.Alike.addImport {s t : Scope} (h : s.Alike t) (name : String) (target : Route) :
    (s.addImport name target).Alike (t.addImport name target) := by
  refine ⟨fun other => ?_, h.globs, h.items, h.modules⟩
  have himport := h.imports other
  rw [import?, import?] at himport ⊢
  rw [Scope.addImport, Scope.addImport, List.lookup_cons, List.lookup_cons, himport]

/-- One name for a type **keeps names alike**. -/
theorem Names.Alike.addAlias {n o : Names} (h : n.Alike o) {d e : Declaration}
    (hde : d.Rearranged e) : (n.addAlias d).Alike (o.addAlias e) := by
  refine ⟨fun module => ?_, fun module => ?_⟩
  · rw [Bool.eq_iff_iff, isSome_scope?_addAlias, isSome_scope?_addAlias, h.isThere,
      hde.isTypeAlias_eq, hde.opens_eq]
  · have hadd : ∀ (target : List String) (name : String) {s t : Ty}, s.Rearranged t →
        ((n.addAlias ⟨target, .typeAlias name s⟩).scopeAt module).Alike
          ((o.addAlias ⟨target, .typeAlias name t⟩).scopeAt module) := by
      intro target name s t hst
      simp only [Names.addAlias, scopeAt_update, h.typeMeaning_eq target none hst]
      split
      · exact (h.scopeAt module).addImport name _
      · exact h.scopeAt module
    cases hde with
    | typeAlias htype => exact hadd _ _ htype
    | same =>
        obtain ⟨target, what⟩ := d
        cases what with
        | typeAlias name type => exact hadd target name (Ty.Rearranged.refl type)
        | _ => exact h.scopeAt module

/-- Names for types that come in the same order **keep names alike**. -/
theorem Names.Alike.foldl_addAlias {ds es : List Declaration}
    (hdes : List.Forall₂ Declaration.Rearranged ds es) {n o : Names} (h : n.Alike o) :
    (ds.foldl Names.addAlias n).Alike (es.foldl Names.addAlias o) := by
  induction hdes generalizing n o with
  | nil => exact h
  | cons hde hrest ih => exact ih (h.addAlias hde)

/-- Only names for types are added in the second pass. -/
theorem Names.foldl_addAlias_filter (ds : List Declaration) (n : Names) :
    (ds.filter Declaration.isTypeAlias).foldl Names.addAlias n = ds.foldl Names.addAlias n := by
  induction ds generalizing n with
  | nil => rfl
  | cons d rest ih =>
      obtain ⟨target, what⟩ := d
      cases what with
      | typeAlias name type => exact ih (n.addAlias ⟨target, .typeAlias name type⟩)
      | _ => exact ih n

/-- The imports of a name are those in `use` items and external crates. -/
theorem boundBy_filter_isImport (ds : List Declaration) (module : List String) (name : String) :
    (boundBy (ds.filter Declaration.isImport) module name).filterMap Binding.target? =
      (boundBy ds module name).filterMap Binding.target? := by
  induction ds with
  | nil => rfl
  | cons d rest ih =>
      rw [boundBy_cons, List.filterMap_append, ← ih, List.filter_cons]
      by_cases himport : d.isImport = true
      · rw [if_pos himport, boundBy_cons, List.filterMap_append]
      · have hnone : (if d.module = module then bindingsUnder name (bindingsOf d) else []).filterMap
            Binding.target? = [] := by
          obtain ⟨target, what⟩ := d
          cases what with
          | use global tree => exact absurd rfl himport
          | crate x alias_ => exact absurd rfl himport
          | _ =>
              split
              · simp only [bindingsOf, bindingsUnder, List.filter_cons]
                split <;> rfl
              · rfl
        rw [if_neg himport, hnone, List.nil_append]

/-- Globs are those in `use` items. -/
theorem globsBy_filter_isImport (ds : List Declaration) (module : List String) :
    globsBy (ds.filter Declaration.isImport) module = globsBy ds module := by
  induction ds with
  | nil => rfl
  | cons d rest ih =>
      rw [globsBy, globsBy, List.filter_cons, List.flatMap_cons] at *
      by_cases himport : d.isImport = true
      · rw [if_pos himport, List.flatMap_cons, ih]
      · have hnone : (if d.module = module then globsOf d else []) = [] := by
          obtain ⟨target, what⟩ := d
          cases what with
          | use global tree => exact absurd rfl himport
          | _ => exact ite_self _
        rw [if_neg himport, hnone, List.nil_append, ih]

/-- A rearrangement that moves neither imports past each other nor names for types **keeps the
names**. -/
theorem KeepsNames.of_in_order (h : p.Rearranged q)
    (himports : p.declarations.filter Declaration.isImport =
      q.declarations.filter Declaration.isImport)
    (haliases : List.Forall₂ Declaration.Rearranged
      (p.declarations.filter Declaration.isTypeAlias)
      (q.declarations.filter Declaration.isTypeAlias)) :
    KeepsNames p q := by
  have hlast : ∀ module name, ((p.boundTo module name).filterMap Binding.target?).getLast? =
      ((q.boundTo module name).filterMap Binding.target?).getLast? := by
    intro module name
    rw [SourceFile.boundTo, SourceFile.boundTo, ← boundBy_filter_isImport, himports,
      boundBy_filter_isImport]
  have hglobs : ∀ module, p.globsIn module = q.globsIn module := by
    intro module
    rw [SourceFile.globsIn, SourceFile.globsIn, ← globsBy_filter_isImport, himports,
      globsBy_filter_isImport]
  have halike := (Names.alike_ofDeclarations h hlast hglobs).foldl_addAlias haliases
  rw [Names.foldl_addAlias_filter, Names.foldl_addAlias_filter] at halike
  exact ⟨hlast, hglobs, fun module name _ _ => (halike.scopeAt module).imports name⟩

end CapabilityGate
