import CapabilityGate.Resolution.TypeMeaning

/-!
# What a module binds

The scopes that name resolution works with are folded together from the declarations of a
program. Here is what a scope holds under one name, read off the declarations alone: the ways in
which a module **binds** the name, in the order in which they are written.

## Main definitions

* `Binding`: a way in which a module binds a name.
* `SourceFile.boundTo`: all ways in which a module of a program binds a name.

## Main results

* `Names.shows_ofProgram`: the scopes of a program show what its declarations bind.
* `Names.import?_ofProgram`, `Names.module_ofProgram`, `Names.unbound_ofProgram`: what is found
  under a name that is bound once, or not at all.
-/

namespace CapabilityGate

open Program

/-! ### Bindings -/

/-- A way in which a module binds a name. -/
inductive Binding where
  /-- As an import of the target. -/
  | import_ (target : List String)
  /-- As an item. -/
  | item
  /-- As a module. -/
  | module
  /-- As another name for a type. -/
  | alias_ (type : Ty)

/-- What one leaf of a `use` item binds. Leaves for side effects only bind nothing, and neither
do those without a target. -/
def bindingsOfLeaf : Import → List (String × Binding)
  | .name name target => if name == "_" || target.isEmpty then [] else [(name, .import_ target)]
  | .glob _ => []

/-- The names that a declaration binds in the module it stands in. -/
def bindingsOf (d : Declaration) : List (String × Binding) :=
  match d.what with
  | .item name => [(name, .item)]
  | .module name => [(name, .module)]
  | .use _ tree => (tree.imports []).flatMap bindingsOfLeaf
  | .crate name (some alias_) => bindingsOfLeaf (.name alias_ [name])
  | .crate _ none => []
  | .typeAlias name type => [(name, .alias_ type)]

/-- What a list of bindings says of one name. -/
def bindingsUnder (name : String) (bs : List (String × Binding)) : List Binding :=
  (bs.filter (·.1 = name)).map Prod.snd

/-- The ways in which declarations bind a name in a module. -/
def boundBy (ds : List Declaration) (module : List String) (name : String) : List Binding :=
  ds.flatMap fun d => if d.module = module then bindingsUnder name (bindingsOf d) else []

/-- The ways in which a **module of a program binds** a name, in the order in which they are
written. -/
def Program.SourceFile.boundTo (p : SourceFile) (module : List String) (name : String) :
    List Binding :=
  boundBy p.declarations module name

/-- The target of a binding that is an import. -/
def Binding.target? : Binding → Option Route
  | import_ target => some (.ofNames target)
  | _ => none

@[simp] theorem bindingsUnder_nil (name : String) : bindingsUnder name [] = [] := rfl

/-- Of two lists of bindings a name has those in the first **and then those in the second**. -/
theorem bindingsUnder_append (name : String) (bs cs : List (String × Binding)) :
    bindingsUnder name (bs ++ cs) = bindingsUnder name bs ++ bindingsUnder name cs := by
  simp [bindingsUnder]

@[simp] theorem boundBy_nil (module : List String) (name : String) :
    boundBy [] module name = [] := rfl

/-- A declaration binds a name in its own module only, **in front of the
declarations behind it**. -/
theorem boundBy_cons (d : Declaration) (ds : List Declaration) (module : List String)
    (name : String) :
    boundBy (d :: ds) module name =
      (if d.module = module then bindingsUnder name (bindingsOf d) else []) ++
        boundBy ds module name :=
  List.flatMap_cons

/-! ### Targets -/

/-- Words with another word behind them are words. -/
theorem isWord_of_mem_concat {above : List String} (habove : ∀ n ∈ above, isWord n = true)
    (ident : Word) : ∀ n ∈ above ++ [ident.text], isWord n = true := by
  intro n hn
  rcases List.mem_append.mp hn with hn | hn
  · exact habove n hn
  · obtain rfl := List.mem_singleton.mp hn
    exact ident.isWord

/-- The target of a leaf of a `use` item. -/
def Program.Import.target : Import → List String
  | .name _ target => target
  | .glob target => target

mutual

/-- The target of a leaf that stands below words **is made of words**. -/
theorem isWord_of_imports {above : List String} (habove : ∀ n ∈ above, isWord n = true) :
    ∀ (tree : UseTree) {leaf : Import},
      leaf ∈ tree.imports above → ∀ n ∈ leaf.target, isWord n = true
  | .name ident, leaf, h => by
    rw [UseTree.imports] at h
    split at h
    · split at h
      · obtain rfl := List.mem_singleton.mp h
        exact habove
      · exact absurd h List.not_mem_nil
    · obtain rfl := List.mem_singleton.mp h
      exact isWord_of_mem_concat habove ident
  | .rename ident renamed, leaf, h => by
    rw [UseTree.imports] at h
    obtain rfl := List.mem_singleton.mp h
    rw [Import.target]
    split
    · exact habove
    · exact isWord_of_mem_concat habove ident
  | .glob, leaf, h => by
    rw [UseTree.imports] at h
    obtain rfl := List.mem_singleton.mp h
    exact habove
  | .under ident tree, leaf, h => by
    rw [UseTree.imports] at h
    exact isWord_of_imports (isWord_of_mem_concat habove ident) tree h
  | .group trees, leaf, h => by
    rw [UseTree.imports] at h
    exact isWord_of_importsOfTrees habove trees h

/-- The target of a leaf of one of several trees that stand below words is made of words. -/
theorem isWord_of_importsOfTrees {above : List String} (habove : ∀ n ∈ above, isWord n = true) :
    ∀ (trees : List UseTree) {leaf : Import},
      leaf ∈ importsOfTrees above trees → ∀ n ∈ leaf.target, isWord n = true
  | [], leaf, h => by
    rw [importsOfTrees] at h
    exact absurd h List.not_mem_nil
  | tree :: rest, leaf, h => by
    rw [importsOfTrees] at h
    rcases List.mem_append.mp h with hfirst | hrest
    · exact isWord_of_imports habove tree hfirst
    · exact isWord_of_importsOfTrees habove rest hrest

end

/-- A target of two names or more that a module binds a name to **is made of words**. -/
theorem isWord_of_boundTo {p : SourceFile} {module target : List String} {name : String}
    (h : Binding.import_ target ∈ p.boundTo module name) (hlength : 2 ≤ target.length) :
    ∀ n ∈ target, isWord n = true := by
  obtain ⟨d, -, hd⟩ := List.mem_flatMap.mp h
  have hbinding : ∃ n, (n, Binding.import_ target) ∈ bindingsOf d := by
    split at hd
    · obtain ⟨⟨n, b⟩, hmem, rfl⟩ := List.mem_map.mp hd
      exact ⟨n, (List.mem_filter.mp hmem).1⟩
    · exact absurd hd List.not_mem_nil
  obtain ⟨n, hn⟩ := hbinding
  rw [bindingsOf] at hn
  split at hn
  next => simp at hn
  next => simp at hn
  next global tree _ =>
    obtain ⟨i, hi, hleaf⟩ := List.mem_flatMap.mp hn
    cases i with
    | glob above => exact absurd hleaf List.not_mem_nil
    | name alias_ path =>
        rw [bindingsOfLeaf] at hleaf
        split at hleaf
        · exact absurd hleaf List.not_mem_nil
        · simp only [List.mem_singleton, Prod.mk.injEq, Binding.import_.injEq] at hleaf
          obtain ⟨-, rfl⟩ := hleaf
          exact isWord_of_imports (fun _ h => absurd h List.not_mem_nil) tree hi
  next crate alias_ _ =>
    rw [bindingsOfLeaf] at hn
    split at hn
    · exact absurd hn List.not_mem_nil
    · simp only [List.mem_singleton, Prod.mk.injEq, Binding.import_.injEq] at hn
      obtain ⟨-, rfl⟩ := hn
      simp at hlength
  next => exact absurd hn List.not_mem_nil
  next => simp at hn

/-! ### What a scope shows of a name -/

namespace Scope

/-- The targets of all imports under a name, the latest first. -/
def targets (s : Scope) (name : String) : List Route :=
  (s.imports.filter (·.1 == name)).map Prod.snd

/-- The import under a name is **the latest** of those under it. -/
theorem import?_eq_head? (s : Scope) (name : String) :
    s.import? name = (s.targets name).head? := by
  rw [import?, targets]
  induction s.imports with
  | nil => rfl
  | cons pair rest ih =>
      obtain ⟨n, target⟩ := pair
      by_cases h : n = name
      · subst h
        simp
      · have hne : (name == n) = false := by simpa using Ne.symm h
        rw [List.lookup_cons, hne, ih]
        simp [h]

/-- A scope **shows** bindings of a name when it holds their imports, the latest first, and is
right about which of them are items and modules. -/
structure Shows (s : Scope) (name : String) (bs : List Binding) : Prop where
  /-- The imports under the name. -/
  targets : s.targets name = (bs.filterMap Binding.target?).reverse
  /-- Whether the name is that of an item. -/
  item : name ∈ s.items ↔ Binding.item ∈ bs
  /-- Whether the name is that of a module. -/
  module : name ∈ s.modules ↔ Binding.module ∈ bs

/-- The empty scope shows no bindings. -/
theorem shows_empty (name : String) : Scope.empty.Shows name [] :=
  ⟨rfl, by simp [empty], by simp [empty]⟩

variable {s : Scope} {name : String} {bs : List Binding}

/-- A scope that shows what a name is bound to shows **one more import** of it too. -/
theorem Shows.addImport (h : s.Shows name bs) (n : String) (target : List String) :
    (s.addImport n (.ofNames target)).Shows name
      (bs ++ bindingsUnder name [(n, .import_ target)]) := by
  obtain ⟨htargets, hitem, hmodule⟩ := h
  rw [Scope.targets] at htargets
  by_cases hn : n = name
  · subst hn
    refine ⟨?_, ?_, ?_⟩
    · simp [Scope.targets, Scope.addImport, bindingsUnder, htargets, Binding.target?]
    · simpa [Scope.addImport, bindingsUnder] using hitem
    · simpa [Scope.addImport, bindingsUnder] using hmodule
  · refine ⟨?_, ?_, ?_⟩
    · simpa [Scope.targets, Scope.addImport, bindingsUnder, hn] using htargets
    · simpa [Scope.addImport, bindingsUnder, hn] using hitem
    · simpa [Scope.addImport, bindingsUnder, hn] using hmodule

/-- So it shows one more item. -/
theorem Shows.addItem (h : s.Shows name bs) (n : String) :
    (s.addItem n).Shows name (bs ++ bindingsUnder name [(n, .item)]) := by
  obtain ⟨htargets, hitem, hmodule⟩ := h
  have htargets : (s.addItem n).targets name = (bs.filterMap Binding.target?).reverse := htargets
  have hmodule : name ∈ (s.addItem n).modules ↔ Binding.module ∈ bs := hmodule
  by_cases hn : n = name
  · subst hn
    refine ⟨?_, ?_, ?_⟩
    · simpa [bindingsUnder, List.filterMap_cons, Binding.target?] using htargets
    · simp [Scope.addItem, bindingsUnder]
    · simpa [bindingsUnder] using hmodule
  · refine ⟨?_, ?_, ?_⟩
    · simpa [bindingsUnder, hn] using htargets
    · simpa [Scope.addItem, bindingsUnder, hn, Ne.symm hn] using hitem
    · simpa [bindingsUnder, hn] using hmodule

/-- So it shows one more module. -/
theorem Shows.addModule (h : s.Shows name bs) (n : String) :
    (s.addModule n).Shows name (bs ++ bindingsUnder name [(n, .module)]) := by
  obtain ⟨htargets, hitem, hmodule⟩ := h
  have htargets : (s.addModule n).targets name = (bs.filterMap Binding.target?).reverse :=
    htargets
  have hitem : name ∈ (s.addModule n).items ↔ Binding.item ∈ bs := hitem
  by_cases hn : n = name
  · subst hn
    refine ⟨?_, ?_, ?_⟩
    · simpa [bindingsUnder, List.filterMap_cons, Binding.target?] using htargets
    · simpa [bindingsUnder] using hitem
    · simp [Scope.addModule, bindingsUnder]
  · refine ⟨?_, ?_, ?_⟩
    · simpa [bindingsUnder, hn] using htargets
    · simpa [bindingsUnder, hn] using hitem
    · simpa [Scope.addModule, bindingsUnder, hn, Ne.symm hn] using hmodule

/-- Another name for a type is shown only once what it means is known. -/
theorem Shows.withAlias (h : s.Shows name bs) (n : String) (type : Ty) :
    s.Shows name (bs ++ bindingsUnder name [(n, .alias_ type)]) := by
  obtain ⟨htargets, hitem, hmodule⟩ := h
  by_cases hn : n = name
  · refine ⟨?_, ?_, ?_⟩
    · simpa [bindingsUnder, hn, List.filterMap_cons, Binding.target?] using htargets
    · simpa [bindingsUnder, hn] using hitem
    · simpa [bindingsUnder, hn] using hmodule
  · simpa [bindingsUnder, hn] using Shows.mk htargets hitem hmodule

/-- A glob binds **no name** by itself. -/
theorem Shows.addGlob (h : s.Shows name bs) (target : Route) :
    (s.addGlob target).Shows name bs :=
  ⟨h.targets, h.item, h.module⟩

/-- A name that is bound once, by a `use` leaf, is **imported** with its target. -/
theorem Shows.import?_eq_some {target : List String} (h : s.Shows name [.import_ target]) :
    s.import? name = some (.ofNames target) := by
  rw [import?_eq_head?, h.targets]
  rfl

/-- A name that no `use` leaf binds is **not imported**. -/
theorem Shows.import?_eq_none (h : s.Shows name bs) (hbs : bs.filterMap Binding.target? = []) :
    s.import? name = none := by
  rw [import?_eq_head?, h.targets, hbs]
  rfl

end Scope

namespace Names

/-- The scope of a module, empty if the module has none. -/
def scopeAt (n : Names) (module : List String) : Scope :=
  (n.scope? module).getD .empty

/-- A scope that holds anything is **there**. -/
theorem scope?_eq_some_scopeAt {n : Names} {module : List String}
    (h : n.scopeAt module ≠ .empty) : n.scope? module = some (n.scopeAt module) := by
  rw [scopeAt] at h ⊢
  cases hscope : n.scope? module with
  | none => exact absurd (by rw [hscope]; rfl) h
  | some s => rfl

/-- No module of the empty program binds anything. -/
theorem scopeAt_empty (module : List String) : Names.empty.scopeAt module = .empty := by
  simp only [scopeAt, scope?, Names.empty, List.lookup_cons, List.lookup_nil]
  split <;> rfl

@[simp] theorem scopeAt_addLocal (n : Names) (name : String) (module : List String) :
    (n.addLocal name).scopeAt module = n.scopeAt module := rfl

/-- Changing the scopes under one key changes what is looked up **under that key only**. -/
theorem lookup_map_update (scopes : List (List String × Scope)) (module other : List String)
    (f : Scope → Scope) :
    (scopes.map fun (m, s) => (m, if m == module then f s else s)).lookup other =
      (scopes.lookup other).map fun s => if other = module then f s else s := by
  induction scopes with
  | nil => rfl
  | cons pair rest ih =>
      obtain ⟨m, s⟩ := pair
      rw [List.map_cons, List.lookup_cons, List.lookup_cons]
      by_cases h : other = m
      · subst h
        simp
      · have hne : (other == m) = false := by simpa using h
        rw [hne]
        exact ih

/-- The scope of a module after **one scope is changed**. -/
theorem scopeAt_update (n : Names) (module other : List String) (f : Scope → Scope) :
    (n.update module f).scopeAt other =
      if other = module then f (n.scopeAt other) else n.scopeAt other := by
  rw [update]
  split
  next hscope =>
    simp only [scopeAt, scope?, lookup_map_update]
    by_cases h : other = module
    · subst h
      obtain ⟨s, hs⟩ := Option.isSome_iff_exists.mp hscope
      rw [scope?] at hs
      simp [hs]
    · cases n.scopes.lookup other <;> simp [h]
  next hscope =>
    simp only [scopeAt, scope?, List.lookup_append]
    by_cases h : other = module
    · subst h
      have hs : n.scopes.lookup other = none := by
        rwa [Bool.not_eq_true, Option.isSome_eq_false_iff, Option.isNone_iff_eq_none] at hscope
      simp [hs]
    · have hne : (other == module) = false := by simpa using h
      simp [List.lookup_cons, hne, h]

/-! ### Scopes that may be empty -/

/-- The globs of a module are looked through in its scope, empty if the module has none. -/
theorem throughGlobs_eq (n : Names) (l : Lookup) (module : List String) (route : Route) :
    n.throughGlobs l module route = (do
      let found ← (n.scopeAt module).globs.mapM fun glob => do
        let aboves ← l.written module glob none none
        return (← aboves.mapM (n.throughGlob l route)).flatten
      return found.flatten) := by
  rw [throughGlobs, scopeAt]
  cases n.scope? module with
  | none => rfl
  | some scope => rfl

/-- A name is looked for in a module by its scope, empty if the module has none. -/
theorem memberRule_cons (n : Names) (l : Lookup) (module : List String) (first : Step)
    (rest : Route) :
    n.memberRule l module (first :: rest) = (do
      if !(← Paid.spend) then return some [Route.inModule module (first :: rest)]
      match (n.scopeAt module).import? first.name with
      | some target => return some (← throughImport l module first.name target (first :: rest))
      | none =>
        if (n.scopeAt module).modules.contains first.name then
          return some (← below l (module ++ [first.name]) rest)
        else if (n.scopeAt module).items.contains first.name then
          return some [Route.inModule module (first :: rest)]
        else
          let found ← n.throughGlobs l module (first :: rest)
          return if found.isEmpty then none else some found) := by
  rw [memberRule, scopeAt]
  cases hscope : n.scope? module with
  | none =>
      have hglobs : n.throughGlobs l module (first :: rest) = Pure.pure [] := by
        rw [throughGlobs, hscope]
      rw [hglobs]
      rfl
  | some scope => rfl

/-- Names lead nowhere by the scopes on the way, empty where there is none. -/
theorem isMissing_cons (n : Names) (module : List String) (name : String) (rest : List String) :
    n.isMissing module (name :: rest) =
      if (n.scopeAt module).items.contains name then false
      else if (n.scopeAt module).modules.contains name then n.isMissing (module ++ [name]) rest
      else true := by
  rw [isMissing, scopeAt]
  cases n.scope? module with
  | none => rfl
  | some scope => rfl

/-- A module knows a name by its scope, empty if the module has none. -/
theorem knows_eq_scopeAt (n : Names) (module : List String) (name : String) :
    n.knows module name = ((prelude? name).isSome || (n.scopeAt module).declares name) := by
  rw [knows, scopeAt]
  cases n.scope? module with
  | none => rfl
  | some scope => rfl

/-! ### Scopes after a declaration -/

variable {n : Names} {module : List String} {name : String} {bs : List Binding}

/-- A change of a scope that adds bindings of a name to what it shows **adds them to what the
module shows**, and to no other module. -/
theorem shows_update {f : Scope → Scope} {added : List Binding} (target : List String)
    (hf : ∀ {s : Scope} {bs : List Binding}, s.Shows name bs → (f s).Shows name (bs ++ added))
    (h : (n.scopeAt module).Shows name bs) :
    ((n.update target f).scopeAt module).Shows name
      (bs ++ if target = module then added else []) := by
  rw [scopeAt_update]
  by_cases ht : module = target
  · rw [if_pos ht, if_pos ht.symm]
    exact hf h
  · rw [if_neg ht, if_neg (Ne.symm ht), List.append_nil]
    exact h

/-- One leaf of a `use` item adds what it binds. -/
theorem shows_addLeaf (target : List String) (i : Import)
    (h : (n.scopeAt module).Shows name bs) :
    ((n.addLeaf target i).scopeAt module).Shows name
      (bs ++ if target = module then bindingsUnder name (bindingsOfLeaf i) else []) := by
  cases i with
  | glob above =>
      have hglob : ∀ {s : Scope} {bs : List Binding}, s.Shows name bs →
          (s.addGlob (.ofNames above)).Shows name (bs ++ []) := fun h => by
        rw [List.append_nil]
        exact h.addGlob _
      exact shows_update target hglob h
  | name alias_ path =>
      simp only [addLeaf, addImport, bindingsOfLeaf]
      split
      · rw [bindingsUnder_nil, ite_self, List.append_nil]
        exact h
      · exact shows_update target (fun h => h.addImport alias_ path) h

/-- The leaves of a `use` item add what they bind, one after another. -/
theorem shows_foldl_addLeaf (target : List String) (is : List Import)
    (h : (n.scopeAt module).Shows name bs) :
    ((is.foldl (addLeaf target) n).scopeAt module).Shows name
      (bs ++ if target = module then bindingsUnder name (is.flatMap bindingsOfLeaf) else []) := by
  induction is generalizing n bs with
  | nil => simpa using h
  | cons i rest ih =>
      have hrest := ih (shows_addLeaf target i h)
      rw [List.foldl_cons, List.flatMap_cons, bindingsUnder_append]
      by_cases ht : target = module
      · simpa [ht] using hrest
      · simpa [ht] using hrest

/-- A declaration adds **what it binds** to what its module shows. -/
theorem shows_declare (d : Declaration) (h : (n.scopeAt module).Shows name bs) :
    ((n.declare d).scopeAt module).Shows name
      (bs ++ if d.module = module then bindingsUnder name (bindingsOf d) else []) := by
  obtain ⟨target, what⟩ := d
  cases what with
  | item x =>
      rw [← scopeAt_addLocal n x] at h
      exact shows_update target (fun h => h.addItem x) h
  | module x =>
      rw [← scopeAt_addLocal n x] at h
      have hmodule := shows_update target (fun h => h.addModule x) h
      simp only [declare]
      rw [scopeAt_update]
      split <;> exact hmodule
  | use _ tree => exact shows_foldl_addLeaf target (tree.imports []) h
  | crate x alias_ =>
      cases alias_ with
      | none => simpa [declare, bindingsOf] using h
      | some alias_ => exact shows_addLeaf target (.name alias_ [x]) h
  | typeAlias x type =>
      simp only [declare, bindingsOf]
      split
      · exact h.withAlias x type
      · rw [List.append_nil]
        exact h

/-- The names that a program declares **show what its declarations bind**. -/
theorem shows_ofDeclarations (ds : List Declaration) (module : List String) (name : String) :
    ((ofDeclarations ds).scopeAt module).Shows name (boundBy ds module name) := by
  have hfold : ∀ (ds : List Declaration) {n : Names} {bs : List Binding},
      (n.scopeAt module).Shows name bs →
        ((ds.foldl declare n).scopeAt module).Shows name (bs ++ boundBy ds module name) := by
    intro ds
    induction ds with
    | nil =>
        intro n bs h
        simpa using h
    | cons d rest ih =>
        intro n bs h
        rw [List.foldl_cons, boundBy_cons, ← List.append_assoc]
        exact ih (shows_declare d h)
  have hempty : (Names.empty.scopeAt module).Shows name [] := by
    rw [scopeAt_empty]
    exact Scope.shows_empty name
  exact hfold ds hempty

/-- A name for a type is added **under that name only**. -/
theorem shows_addAlias (d : Declaration) (h : (n.scopeAt module).Shows name bs)
    (hd : d.module = module → ∀ type, Binding.alias_ type ∉ bindingsUnder name (bindingsOf d)) :
    ((n.addAlias d).scopeAt module).Shows name bs := by
  obtain ⟨target, what⟩ := d
  cases what with
  | typeAlias x type =>
      rw [addAlias, scopeAt_update]
      split
      next htarget =>
        have hne : x ≠ name := by
          rintro rfl
          exact hd htarget.symm type (by simp [bindingsOf, bindingsUnder])
        refine ⟨?_, h.item, h.module⟩
        rw [← h.targets]
        simp [Scope.targets, Scope.addImport, hne]
      next => exact h
  | _ => exact h

/-- The names of a program show **what a module binds a name to**, as far as it is bound to no
type. -/
theorem shows_ofProgram {p : SourceFile}
    (htypes : ∀ type, Binding.alias_ type ∉ p.boundTo module name) :
    ((ofProgram p).scopeAt module).Shows name (p.boundTo module name) := by
  have hfold : ∀ (ds : List Declaration) {n : Names} {bs : List Binding},
      (∀ d ∈ ds, d.module = module → ∀ type,
        Binding.alias_ type ∉ bindingsUnder name (bindingsOf d)) →
      (n.scopeAt module).Shows name bs →
        ((ds.foldl addAlias n).scopeAt module).Shows name bs := by
    intro ds
    induction ds with
    | nil =>
        intro n bs _ h
        exact h
    | cons d rest ih =>
        intro n bs hds h
        rw [List.foldl_cons]
        exact ih (fun e he => hds e (List.mem_cons_of_mem _ he))
          (shows_addAlias d h (hds d (List.mem_cons_self ..)))
  refine hfold p.declarations ?_ (shows_ofDeclarations p.declarations module name)
  intro d hd hmodule type hmem
  refine htypes type ?_
  rw [SourceFile.boundTo, boundBy, List.mem_flatMap]
  exact ⟨d, hd, by rwa [if_pos hmodule]⟩

/-! ### Names that are bound once, or not at all -/

variable {p : SourceFile}

/-- A name that a module binds **once, by a `use` leaf**, is an import with the leaf's target. -/
theorem import?_ofProgram {target : List String}
    (h : p.boundTo module name = [.import_ target]) :
    ((ofProgram p).scopeAt module).import? name = some (.ofNames target) := by
  have htypes : ∀ type, Binding.alias_ type ∉ p.boundTo module name := by simp [h]
  have hshows := shows_ofProgram htypes
  rw [h] at hshows
  exact hshows.import?_eq_some

/-- A name that a module binds **once, as a module**, is a module and no import. -/
theorem module_ofProgram (h : p.boundTo module name = [.module]) :
    ((ofProgram p).scopeAt module).import? name = none ∧
      ((ofProgram p).scopeAt module).modules.contains name = true := by
  have htypes : ∀ type, Binding.alias_ type ∉ p.boundTo module name := by simp [h]
  have hshows := shows_ofProgram htypes
  rw [h] at hshows
  exact ⟨hshows.import?_eq_none rfl, List.contains_iff_mem.mpr (hshows.module.mpr (by simp))⟩

/-- A name that a module does **not bind** is neither an import, nor a module, nor an item. -/
theorem unbound_ofProgram (h : p.boundTo module name = []) :
    ((ofProgram p).scopeAt module).import? name = none ∧
      ((ofProgram p).scopeAt module).modules.contains name = false ∧
      ((ofProgram p).scopeAt module).items.contains name = false := by
  have htypes : ∀ type, Binding.alias_ type ∉ p.boundTo module name := by simp [h]
  have hshows := shows_ofProgram htypes
  rw [h] at hshows
  refine ⟨hshows.import?_eq_none rfl, ?_, ?_⟩
  · rw [← Bool.not_eq_true, List.contains_iff_mem, hshows.module]
    exact List.not_mem_nil
  · rw [← Bool.not_eq_true, List.contains_iff_mem, hshows.item]
    exact List.not_mem_nil

end Names

end CapabilityGate
