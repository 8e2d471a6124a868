import CapabilityGate.Proofs.Program.Opened
import CapabilityGate.Proofs.Resolution.DeclarationOrder

/-!
# Modules within modules

The scopes of a program are those of its root, of the modules that it declares, and of no others:
each module with a scope is declared in the one around it, which has a scope too.

## Main definitions

* `Names.Nested`: the modules with a scope are nested.

## Main results

* `Names.nested_ofProgram`: so are those of every program.
-/

namespace CapabilityGate

open Program

/-- The modules with a scope are **nested**: the root is one, and each other one is declared in the
module around it. -/
structure Names.Nested (n : Names) : Prop where
  /-- The root has a scope. -/
  root : (n.scope? []).isSome = true
  /-- A declared module has a scope. -/
  into : ∀ module name, name ∈ (n.scopeAt module).modules →
    (n.scope? (module ++ [name])).isSome = true
  /-- A module with a scope is declared in the one around it. -/
  declared : ∀ module name, (n.scope? (module ++ [name])).isSome = true →
    (n.scope? module).isSome = true ∧ name ∈ (n.scopeAt module).modules

namespace Names

variable {n : Names}

/-- The module **around one with a scope** has a scope. -/
theorem Nested.above (h : n.Nested) {module : List String}
    (hscope : (n.scope? module).isSome = true) : (n.scope? module.dropLast).isSome = true := by
  rcases List.eq_nil_or_concat module with rfl | ⟨init, name, rfl⟩
  · exact hscope
  · rw [List.concat_eq_append] at hscope ⊢
    rw [List.dropLast_concat]
    exact (h.declared init name hscope).1

/-- Declarations bind a name as a module where **one of them declares** such a module. -/
theorem module_mem_boundBy {ds : List Declaration} {module : List String} {name : String} :
    Binding.module ∈ boundBy ds module name ↔ ⟨module, .module name⟩ ∈ ds := by
  have hone : ∀ d : Declaration, Binding.module ∈ bindingsUnder name (bindingsOf d) ↔
      d.what = .module name := by
    intro d
    have hleaf : ∀ i : Import, (name, Binding.module) ∉ bindingsOfLeaf i := by
      intro i hi
      cases i with
      | glob => exact List.not_mem_nil hi
      | name =>
          rw [bindingsOfLeaf] at hi
          split at hi <;> simp at hi
    have hunder : Binding.module ∈ bindingsUnder name (bindingsOf d) ↔
        (name, Binding.module) ∈ bindingsOf d := by
      simp only [bindingsUnder, List.mem_map, List.mem_filter, decide_eq_true_eq, Prod.exists]
      constructor
      · rintro ⟨_, _, ⟨hmem, rfl⟩, rfl⟩
        exact hmem
      · exact fun hmem => ⟨name, .module, ⟨hmem, rfl⟩, rfl⟩
    rw [hunder, bindingsOf]
    split
    next hwhat => simp [hwhat]
    next hwhat => simp [hwhat, eq_comm]
    next hwhat =>
      rw [hwhat]
      refine iff_of_false (fun hmem => ?_) Declares.noConfusion
      obtain ⟨i, -, hi⟩ := List.mem_flatMap.mp hmem
      exact hleaf i hi
    next hwhat =>
      rw [hwhat]
      exact iff_of_false (hleaf _) Declares.noConfusion
    next hwhat => simp [hwhat]
    next hwhat => simp [hwhat]
  rw [boundBy, List.mem_flatMap]
  constructor
  · rintro ⟨⟨at_, what⟩, hd, hmem⟩
    split at hmem
    next hat =>
      rw [hone] at hmem
      obtain rfl : at_ = module := hat
      obtain rfl : what = .module name := hmem
      exact hd
    next => exact absurd hmem List.not_mem_nil
  · intro hd
    refine ⟨_, hd, ?_⟩
    rw [if_pos rfl, hone]

/-- The modules in a module of a program are **those that are declared** in it. -/
theorem mem_modules_ofProgram {p : SourceFile} {module : List String} {name : String} :
    name ∈ ((ofProgram p).scopeAt module).modules ↔
      ⟨module, .module name⟩ ∈ p.declarations := by
  have hmodules := (scopeAt_foldl_addAlias p.declarations (ofDeclarations p.declarations)
    module).2.2
  rw [ofProgram, hmodules, (shows_ofDeclarations p.declarations module name).module,
    module_mem_boundBy]

/-- **The modules of a program are nested.** -/
theorem nested_ofProgram (p : SourceFile) : (ofProgram p).Nested := by
  have hopens : ∀ {module : List String} {name : String},
      ⟨module, .module name⟩ ∈ p.declarations →
        ((ofProgram p).scope? module).isSome = true ∧
          ((ofProgram p).scope? (module ++ [name])).isSome = true := by
    intro module name hd
    rw [isSome_scope?_ofProgram, isSome_scope?_ofProgram]
    exact ⟨Or.inr ⟨_, hd, by simp [Declaration.opens]⟩,
      Or.inr ⟨_, hd, by simp [Declaration.opens]⟩⟩
  refine ⟨(isSome_scope?_ofProgram p []).mpr (Or.inl rfl), fun module name hname =>
    (hopens (mem_modules_ofProgram.mp hname)).2, fun module name hscope => ?_⟩
  have hdeclared : ⟨module, .module name⟩ ∈ p.declarations := by
    rcases (isSome_scope?_ofProgram p _).mp hscope with hnil | ⟨d, hd, hmem⟩
    · exact absurd hnil (List.append_ne_nil_of_right_ne_nil _ (List.cons_ne_nil _ _))
    · have hstands : module ++ [name] = d.module → ⟨module, .module name⟩ ∈ p.declarations := by
        intro hmodule
        obtain ⟨hopened, -⟩ := opened_of_mem_declarations hd
        rw [← hmodule] at hopened
        generalize hall : module ++ [name] = whole at hopened
        cases hopened with
        | here => exact absurd hall (List.append_ne_nil_of_right_ne_nil _ (List.cons_ne_nil _ _))
        | into _ hinto =>
            obtain ⟨rfl, hlast⟩ := List.append_inj' hall rfl
            obtain rfl := List.singleton_inj.mp hlast
            exact hinto
      rw [Declaration.opens] at hmem
      split at hmem
      next => exact hstands (List.mem_singleton.mp hmem)
      next => exact hstands (List.mem_singleton.mp hmem)
      next other hwhat =>
        simp only [List.mem_cons, List.not_mem_nil, or_false] at hmem
        rcases hmem with hmem | hmem
        · exact hstands hmem
        · obtain ⟨rfl, hlast⟩ := List.append_inj' hmem rfl
          obtain rfl := List.singleton_inj.mp hlast
          rw [← hwhat]
          exact hd
      next =>
        split at hmem
        · exact hstands (List.mem_singleton.mp hmem)
        · exact absurd hmem List.not_mem_nil
      next =>
        split at hmem
        · exact hstands (List.mem_singleton.mp hmem)
        · exact absurd hmem List.not_mem_nil
      next => exact absurd hmem List.not_mem_nil
  exact ⟨(hopens hdeclared).1, mem_modules_ofProgram.mpr hdeclared⟩

end Names

end CapabilityGate
