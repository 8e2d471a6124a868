import CapabilityGate.Proofs.Resolution.DeclarationOrder
import CapabilityGate.Proofs.Resolution.Reexport

/-!
# Paths to modules

A path may lead down through the modules of a program, one name after another. As long as none of
the names is imported where it is looked for, each lookup goes to the module of that name and
nowhere else, and what is left of the path at the end is looked up in the module it has come to.

## Main definitions

* `SourceFile.DeclaresModule`: a module has another one in it, and no import of the same name.
* `LeadsDown`: names that lead from a module down through such modules.
* `NamesModule`: the target of a `use` leaf that names a module.
* `StaysIn`: a route that stays among the declarations of the program.

## Main results

* `LeadsDown.below_append`: names that lead down are looked up one after another.
* `StaysIn.below_eq`: a route that stays in the program is found as it is written.
* `NamesModule.written_eq`: the target of a `use` leaf that names a module is that module.
* `declares_ofProgram_iff`: a module declares the names that it binds.
-/

namespace CapabilityGate

open Program Route

/-! ### Modules in modules -/

/-- A module **declares another one** under a name when nothing but modules and items have this
name in it: neither an import nor a name for a type. -/
structure Program.SourceFile.DeclaresModule (p : SourceFile) (base : List String)
    (name : String) : Prop where
  /-- A module has the name. -/
  bound : Binding.module ∈ p.boundTo base name
  /-- If anything else has it, then an item. -/
  others : ∀ b ∈ p.boundTo base name, b = .module ∨ b = .item

/-- The names lead from the module `base` **down through declared modules**, each of them in the
one before it. -/
inductive LeadsDown (p : SourceFile) : (base names : List String) → Prop
  /-- No names lead to the module itself. -/
  | here {base : List String} : LeadsDown p base []
  /-- One name leads to a module in it. -/
  | into {base names : List String} {name : String} (hword : name ∉ pathWords)
      (hmodule : p.DeclaresModule base name) (hrest : LeadsDown p (base ++ [name]) names) :
      LeadsDown p base (name :: names)

/-- The target of a `use` leaf, written in the module `module`, **names the module** `named`. -/
inductive NamesModule (p : SourceFile) (module : List String) :
    (target named : List String) → Prop
  /-- A module in or below this one. -/
  | child {name : String} {names : List String} (h : LeadsDown p module (name :: names)) :
      NamesModule p module (name :: names) (module ++ name :: names)
  /-- A module around this one, or one in or below that. -/
  | around {words base names : List String} (hstart : Starts module words base)
      (h : LeadsDown p base names) : NamesModule p module (words ++ names) (base ++ names)

/-- A route that is looked for in a module **stays among the declarations** of the program: it
leads down through modules, and ends there, or at an item, or at a name that stands for nothing in
a module without globs. -/
inductive StaysIn (p : SourceFile) : (base : List String) → Route → Prop
  /-- The route is at its end. -/
  | here {base : List String} : StaysIn p base []
  /-- Its first name is a module, in which the rest stays. -/
  | into {base : List String} {name : String} {rest : Route} (hword : name ∉ pathWords)
      (hmodule : p.DeclaresModule base name) (hrest : StaysIn p (base ++ [name]) rest) :
      StaysIn p base (plainStep name :: rest)
  /-- Its first name is an item and nothing else. -/
  | item {base : List String} {name : String} {args : List TypeName} {rest : Route}
      (hword : name ∉ pathWords) (hbound : Binding.item ∈ p.boundTo base name)
      (hothers : ∀ b ∈ p.boundTo base name, b = .item) : StaysIn p base (⟨name, args⟩ :: rest)
  /-- Its first name stands for nothing, and no glob may offer it. -/
  | unknown {base : List String} {name : String} {args : List TypeName} {rest : Route}
      (hword : name ∉ pathWords) (hfree : p.boundTo base name = [])
      (hglobs : p.globsIn base = []) : StaysIn p base (⟨name, args⟩ :: rest)

variable {p : SourceFile}

/-- A route behind names that lead down **stays in the program** if it does so in the module they
lead to. -/
theorem LeadsDown.staysIn {base names : List String} {rest : Route} (h : LeadsDown p base names)
    (hrest : StaysIn p (base ++ names) rest) : StaysIn p base (ofNames names ++ rest) := by
  induction h with
  | here => simpa [ofNames] using hrest
  | into hword hmodule hdown ih =>
      rw [List.append_assoc, List.singleton_append] at ih
      exact .into hword hmodule (ih hrest)

/-! ### What a module declares -/

namespace Names

/-- The bindings of a name that is bound neither to an import nor to a type have no targets. -/
theorem filterMap_target?_eq_nil {bs : List Binding}
    (h : ∀ b ∈ bs, b = .module ∨ b = .item) : bs.filterMap Binding.target? = [] := by
  rw [List.filterMap_eq_nil_iff]
  intro b hb
  rcases h b hb with rfl | rfl
  · rfl
  · rfl

/-- The scopes of a program **show a name** that is bound neither to an import nor to a type. -/
theorem shows_of_others {base : List String} {name : String}
    (h : ∀ b ∈ p.boundTo base name, b = .module ∨ b = .item) :
    ((ofProgram p).scopeAt base).Shows name (p.boundTo base name) := by
  refine shows_ofProgram fun type htype => ?_
  rcases h _ htype with heq | heq
  · exact Binding.noConfusion heq
  · exact Binding.noConfusion heq

/-- A declared module **is found** under its name, and no import is. -/
theorem find_module {base : List String} {name : String} (h : p.DeclaresModule base name) :
    ((ofProgram p).scopeAt base).import? name = none ∧
      ((ofProgram p).scopeAt base).modules.contains name = true := by
  have hshows := shows_of_others h.others
  refine ⟨hshows.import?_eq_none (filterMap_target?_eq_nil h.others), ?_⟩
  rw [List.contains_iff_mem, hshows.module]
  exact h.bound

/-- What a declaration **binds a name to** is what it declares, or an import. -/
theorem what_of_mem_bindingsOf {d : Declaration} {name : String} {b : Binding}
    (h : (name, b) ∈ bindingsOf d) :
    (∃ target, b = .import_ target) ∨ (b = .item ∧ d.what = .item name) ∨
      (b = .module ∧ d.what = .module name) ∨
      ∃ type, b = .alias_ type ∧ d.what = .typeAlias name type := by
  have hleaf : ∀ {leaf : Import}, (name, b) ∈ bindingsOfLeaf leaf →
      ∃ target, b = .import_ target := by
    intro leaf hleaf
    cases leaf with
    | glob target => exact absurd hleaf List.not_mem_nil
    | name alias_ target =>
        rw [bindingsOfLeaf] at hleaf
        split at hleaf
        · exact absurd hleaf List.not_mem_nil
        · obtain ⟨-, rfl⟩ := Prod.mk.inj (List.mem_singleton.mp hleaf)
          exact ⟨target, rfl⟩
  obtain ⟨module, what⟩ := d
  cases what with
  | item x =>
      obtain ⟨rfl, rfl⟩ := Prod.mk.inj (List.mem_singleton.mp h)
      exact Or.inr (Or.inl ⟨rfl, rfl⟩)
  | module x =>
      obtain ⟨rfl, rfl⟩ := Prod.mk.inj (List.mem_singleton.mp h)
      exact Or.inr (Or.inr (Or.inl ⟨rfl, rfl⟩))
  | typeAlias x type =>
      obtain ⟨rfl, rfl⟩ := Prod.mk.inj (List.mem_singleton.mp h)
      exact Or.inr (Or.inr (Or.inr ⟨type, rfl, rfl⟩))
  | use global tree =>
      obtain ⟨leaf, -, hmem⟩ := List.mem_flatMap.mp h
      exact Or.inl (hleaf hmem)
  | crate x alias_ =>
      cases alias_ with
      | none => exact absurd h List.not_mem_nil
      | some alias_ =>
          have hmem : (name, b) ∈ bindingsOfLeaf (.name alias_ [x]) := h
          exact Or.inl (hleaf hmem)

/-- A declared module **has a scope**. -/
theorem isSome_scope?_of_module {base : List String} {name : String}
    (h : p.DeclaresModule base name) :
    ((ofProgram p).scope? (base ++ [name])).isSome = true := by
  rw [isSome_scope?_ofProgram]
  obtain ⟨d, hd, rfl, hbinding⟩ := mem_boundBy.mp h.bound
  rcases what_of_mem_bindingsOf hbinding with ⟨_, h⟩ | ⟨h, -⟩ | ⟨-, hwhat⟩ | ⟨_, h, -⟩
  · exact Binding.noConfusion h
  · exact Binding.noConfusion h
  · exact Or.inr ⟨d, hd, by simp [Declaration.opens, hwhat]⟩
  · exact Binding.noConfusion h

/-- The module that names lead down to has a scope. -/
theorem isSome_scope?_of_leadsDown {base names : List String} (h : LeadsDown p base names)
    (hbase : ((ofProgram p).scope? base).isSome = true) :
    ((ofProgram p).scope? (base ++ names)).isSome = true := by
  induction h with
  | here => simpa using hbase
  | into hword hmodule hrest ih =>
      rw [List.append_assoc, List.singleton_append] at ih
      exact ih (isSome_scope?_of_module hmodule)

/-- The globs of a module of a program are those that stand in it. -/
theorem globs_ofProgram (p : SourceFile) (module : List String) :
    ((ofProgram p).scopeAt module).globs = p.globsIn module := by
  rw [ofProgram, (scopeAt_foldl_addAlias ..).1, globs_ofDeclarations]
  rfl

/-- Adding names for types **keeps** a name imported, if it is. -/
theorem isSome_import?_foldl_addAlias {module : List String} {name : String}
    (ds : List Declaration) {n : Names} (h : ((n.scopeAt module).import? name).isSome = true) :
    (((ds.foldl addAlias n).scopeAt module).import? name).isSome = true := by
  induction ds generalizing n with
  | nil => exact h
  | cons d rest ih =>
      refine ih ?_
      obtain ⟨target, what⟩ := d
      cases what with
      | typeAlias x type =>
          rw [addAlias, scopeAt_update]
          split
          · rw [Scope.import?, Scope.addImport, List.lookup_cons]
            split
            · rfl
            · exact h
          · exact h
      | _ => exact h

/-- A name for a type is **found as an import**. -/
theorem isSome_import?_of_alias {module : List String} {name : String} {type : Ty}
    (h : Binding.alias_ type ∈ p.boundTo module name) :
    (((ofProgram p).scopeAt module).import? name).isSome = true := by
  obtain ⟨d, hd, hmodule, hbinding⟩ := mem_boundBy.mp h
  obtain ⟨before, after, hsplit⟩ := List.append_of_mem hd
  rw [ofProgram, hsplit, List.foldl_append, List.foldl_cons]
  refine isSome_import?_foldl_addAlias after ?_
  rcases what_of_mem_bindingsOf hbinding with ⟨_, h⟩ | ⟨h, -⟩ | ⟨h, -⟩ | ⟨_, -, hwhat⟩
  · exact Binding.noConfusion h
  · exact Binding.noConfusion h
  · exact Binding.noConfusion h
  · simp only [addAlias, hwhat, scopeAt_update, hmodule, if_true]
    simp [Scope.import?, Scope.addImport]

/-- A module of a program **declares the names that it binds**, and no others. -/
theorem declares_ofProgram_iff {module : List String} {name : String} :
    ((ofProgram p).scopeAt module).declares name = true ↔ p.boundTo module name ≠ [] := by
  constructor
  · intro hdeclares hfree
    obtain ⟨himport, hmodule, hitem⟩ := unbound_ofProgram hfree
    rw [Scope.declares, himport, hmodule, hitem] at hdeclares
    exact Bool.noConfusion hdeclares
  · intro hbound
    rw [Scope.declares]
    by_cases halias : ∃ type, Binding.alias_ type ∈ p.boundTo module name
    · obtain ⟨type, htype⟩ := halias
      rw [isSome_import?_of_alias htype]
      rfl
    · have hshows := shows_ofProgram fun type htype => halias ⟨type, htype⟩
      obtain ⟨b, hb⟩ := List.exists_mem_of_ne_nil _ hbound
      cases b with
      | item => simp [hshows.item.mpr hb]
      | module => simp [hshows.module.mpr hb]
      | alias_ type => exact absurd ⟨type, hb⟩ halias
      | import_ target =>
          have hmem : Route.ofNames target ∈ ((ofProgram p).scopeAt module).targets name := by
            rw [hshows.targets, List.mem_reverse, List.mem_filterMap]
            exact ⟨_, hb, rfl⟩
          obtain ⟨first, rest, htargets⟩ := List.exists_cons_of_ne_nil (List.ne_nil_of_mem hmem)
          rw [Scope.import?_eq_head?, htargets]
          rfl

end Names

/-! ### Looking up what leads down -/

open Names

variable {depth left : Nat}

/-- A module below a module is named by all the names on the way to it. -/
theorem inModule_append (base names : List String) (rest : Route) :
    inModule (base ++ names) rest = inModule base (ofNames names ++ rest) := by
  simp [inModule, ofNames]

/-- A module is found in the module that declares it, **and the rest is looked for in it**. -/
theorem member_module {base : List String} {name : String} (h : p.DeclaresModule base name)
    (args : List TypeName) (rest : Route) :
    ((ofProgram p).lookup (depth + 1)).member base (⟨name, args⟩ :: rest) (left + 1) =
      (let (found, left) := Names.below ((ofProgram p).lookup depth) (base ++ [name]) rest left
       (some found, left)) := by
  obtain ⟨himport, hmodule⟩ := find_module h
  rw [lookup_member]
  exact memberRule_module himport hmodule

/-- What is looked for in a module with **nothing left to pay with** is taken to be there. -/
theorem member_spent (n : Names) (depth : Nat) (base : List String) (first : Step) (rest : Route) :
    (n.lookup depth).member base (first :: rest) 0 = (some [inModule base (first :: rest)], 0) := by
  cases depth with
  | zero => rfl
  | succ depth => rfl

/-- Names that lead down are looked up **one after another**, and then the rest in the module that
they have led to. -/
theorem LeadsDown.below_append {base names : List String} (h : LeadsDown p base names)
    (rest : Route) :
    Names.below ((ofProgram p).lookup (names.length + depth)) base (ofNames names ++ rest)
        (names.length + left) =
      Names.below ((ofProgram p).lookup depth) (base ++ names) rest left := by
  induction h with
  | here => simp [ofNames]
  | @into base names name hword hmodule hrest ih =>
      have hdepth : (name :: names).length + depth = (names.length + depth) + 1 := by
        simp only [List.length_cons]
        omega
      have hleft : (name :: names).length + left = (names.length + left) + 1 := by
        simp only [List.length_cons]
        omega
      have hroute : ofNames (name :: names) ++ rest = ⟨name, []⟩ :: (ofNames names ++ rest) := rfl
      rw [hdepth, hleft, hroute, below_name hword, member_module hmodule, ih, List.append_assoc,
        List.singleton_append]
      rfl

/-- Names that lead down lead to **the module below**, whether the budget lasts or not. -/
theorem LeadsDown.below_eq {base names : List String} (h : LeadsDown p base names)
    (hleft : left ≤ depth) :
    Names.below ((ofProgram p).lookup depth) base (ofNames names) left =
      ([inModule (base ++ names) []], left - names.length) := by
  induction h generalizing depth left with
  | here =>
      rw [List.append_nil, List.length_nil, Nat.sub_zero]
      rfl
  | @into base names name hword hmodule hrest ih =>
      have hroute : ofNames (name :: names) = ⟨name, []⟩ :: ofNames names := rfl
      have hnamed : inModule (base ++ name :: names) [] =
          inModule base (⟨name, []⟩ :: ofNames names) := by
        rw [inModule_append, List.append_nil, hroute]
      rw [hroute, below_name hword]
      cases left with
      | zero =>
          rw [member_spent, Nat.zero_sub, hnamed]
          rfl
      | succ left =>
          obtain ⟨depth, rfl⟩ : ∃ d, depth = d + 1 := ⟨depth - 1, by omega⟩
          have hlengths : left + 1 - (name :: names).length = left - names.length := by
            simp only [List.length_cons]
            omega
          rw [member_module hmodule, ih (by omega), hlengths, List.append_assoc,
            List.singleton_append]
          rfl

/-- An item in the module it is looked for in is found **as it is written**. -/
theorem member_item {base : List String} {name : String}
    (hbound : Binding.item ∈ p.boundTo base name)
    (hothers : ∀ b ∈ p.boundTo base name, b = .item) (args : List TypeName) (rest : Route) :
    (((ofProgram p).lookup (depth + 1)).member base (⟨name, args⟩ :: rest) (left + 1)).1 =
      some [inModule base (⟨name, args⟩ :: rest)] := by
  have hshows := shows_of_others fun b hb => Or.inr (hothers b hb)
  have himport : ((ofProgram p).scopeAt base).import? name = none :=
    hshows.import?_eq_none (filterMap_target?_eq_nil fun b hb => Or.inr (hothers b hb))
  have hmodule : ((ofProgram p).scopeAt base).modules.contains name = false := by
    rw [← Bool.not_eq_true, List.contains_iff_mem, hshows.module]
    exact fun h => Binding.noConfusion (hothers _ h)
  have hitem : ((ofProgram p).scopeAt base).items.contains name = true := by
    rw [List.contains_iff_mem, hshows.item]
    exact hbound
  have hscope : (ofProgram p).scope? base = some ((ofProgram p).scopeAt base) := by
    refine scope?_eq_some_scopeAt fun hempty => ?_
    rw [hempty] at hitem
    exact Bool.noConfusion hitem
  rw [lookup_member]
  simp only [memberRule, Paid.spend, bind, StateT.bind, hscope, himport, hmodule, hitem]
  rfl

/-- A name that stands for nothing in a module without globs is **not found** there. -/
theorem member_unknown {base : List String} {name : String} (hfree : p.boundTo base name = [])
    (hglobs : p.globsIn base = []) (args : List TypeName) (rest : Route) :
    (((ofProgram p).lookup (depth + 1)).member base (⟨name, args⟩ :: rest) (left + 1)).1 =
      none := by
  obtain ⟨himport, hmodule, hitem⟩ := unbound_ofProgram hfree
  have hnone := globs_ofProgram p base
  rw [hglobs] at hnone
  rw [scopeAt] at himport hmodule hitem hnone
  rw [lookup_member]
  cases hscope : (ofProgram p).scope? base with
  | none =>
      simp only [memberRule, Paid.spend, bind, StateT.bind, hscope]
      rfl
  | some scope =>
      rw [hscope, Option.getD_some] at himport hmodule hitem hnone
      simp only [memberRule, throughGlobs, Paid.spend, bind, StateT.bind, hscope, himport, hmodule,
        hitem, hnone]
      rfl

/-- A route that stays in the program is found **as it is written**, whether the budget lasts or
not. -/
theorem StaysIn.below_eq {base : List String} {route : Route} (h : StaysIn p base route) :
    (Names.below ((ofProgram p).lookup depth) base route left).1 = [inModule base route] := by
  induction h generalizing depth left with
  | here => rfl
  | @into base name rest hword hmodule hrest ih =>
      rw [plainStep, below_name hword]
      cases depth with
      | zero => rfl
      | succ depth =>
          cases left with
          | zero => rfl
          | succ left =>
              rw [member_module hmodule]
              have hbelow : (Names.below ((ofProgram p).lookup depth) (base ++ [name]) rest
                  left).1 = [inModule (base ++ [name]) rest] := ih
              rw [inModule_append] at hbelow
              exact hbelow
  | @item base name args rest hword hbound hothers =>
      rw [below_name hword]
      cases depth with
      | zero => rfl
      | succ depth =>
          cases left with
          | zero => rfl
          | succ left => exact congrArg (Option.getD · _) (member_item hbound hothers args rest)
  | @unknown base name args rest hword hfree hglobs =>
      rw [below_name hword]
      cases depth with
      | zero => rfl
      | succ depth =>
          cases left with
          | zero => rfl
          | succ left => exact congrArg (Option.getD · _) (member_unknown hfree hglobs args rest)

/-- The target of a `use` leaf that names a module **is found to be that module**, whether the
budget lasts or not. -/
theorem NamesModule.written_eq {module target named : List String}
    (h : NamesModule p module target named) (hleft : left ≤ depth) (owner : Option TypeName)
    (skip : Option String) :
    (((ofProgram p).lookup (depth + 1)).written module (ofNames target) owner skip (left + 1)).1 =
      [inModule named []] := by
  rw [lookup_written]
  cases h with
  | @child name names h =>
      cases h with
      | into hword hmodule hrest =>
          obtain ⟨himport, hmodules⟩ := find_module hmodule
          have hroute : ofNames (name :: names) = ⟨name, []⟩ :: ofNames names := rfl
          have hdown := congrArg Prod.fst (hrest.below_eq hleft)
          rw [List.append_assoc, List.singleton_append] at hdown
          rw [hroute, writtenRule_name hword, byName_module himport hmodules]
          exact hdown
  | @around words base names hstart h =>
      have hroute : ofNames (words ++ names) = ofNames words ++ ofNames names := by simp [ofNames]
      rw [hroute, writtenRule_starts hstart]
      exact congrArg Prod.fst (h.below_eq hleft)

end CapabilityGate
