import CapabilityGate.Proofs.Audit.Rejection
import CapabilityGate.Proofs.Program.DeclaredItems
import CapabilityGate.Proofs.Resolution.ModulePath

/-!
# Paths that lead to no declaration

A call site that points into the program is unresolved when a walk along its names, from the root
through the modules that the program declares, ends at a name for which the module it has come to
declares nothing that the rest of the path can belong to. The walk has one flaw: it ends at any
item of the name, also at a function, a constant or a static, which have no members, although a
module of the same name may stand beside it.

## Main definitions

* `SourceFile.HasItem`, `SourceFile.HasSubmodule`: what the source of a module declares.
* `SourceFile.Offers`: what it declares under a name that the rest of a path can belong to.
* `SourceFile.Dangles`: names that lead to no declaration.
* `SourceFile.StopsShort`: names on which the walk ends at an item without members.

## Main results

* `isUnresolved_iff_dangles`: the call sites that are unresolved.
* `function_hides_module`: a path that leads nowhere and is not unresolved.
-/

namespace CapabilityGate

open Program Names

/-! ### What the source of a module declares -/

/-- The source of a module **declares an item** of a kind: a declaration of the name stands in the
module, in the body of a function perhaps. -/
def Program.SourceFile.HasItem (p : SourceFile) (module : List String) (kind : Declared)
    (name : String) : Prop :=
  ∃ word parts, word.text = name ∧ p.Enters module (.item (.declaration kind word parts))

/-- The source of a module **declares a module** in it. -/
def Program.SourceFile.HasSubmodule (p : SourceFile) (module : List String) (name : String) :
    Prop :=
  ∃ word parts, word.text = name ∧ p.Enters module (.item (.module word parts))

/-- Whether a path can go on behind an item of this kind: it has variants, associated items or
methods. -/
def Program.Declared.hasMembers : Declared → Bool
  | .function | .constant | .static => false
  | .trait | .structure_ | .enumeration | .union => true

variable {p : SourceFile} {module names rest : List String} {name : String}

/-- The items of a scope are those that **the source of the module declares**. -/
theorem item_mem_declarations_iff :
    ⟨module, .item name⟩ ∈ p.declarations ↔ ∃ kind, p.HasItem module kind name := by
  rw [mem_declarations_iff]
  constructor
  · rintro ⟨at_, inner, henters, hdeclares⟩
    cases inner with
    | item item =>
        cases item with
        | declaration kind word parts =>
            obtain ⟨rfl, hname⟩ := Declaration.mk.inj (List.mem_singleton.mp hdeclares)
            exact ⟨kind, word, parts, (Declares.item.inj hname).symm, henters⟩
        | _ => simp [Part.declares] at hdeclares
    | _ => exact absurd hdeclares List.not_mem_nil
  · rintro ⟨kind, word, parts, rfl, henters⟩
    exact ⟨module, _, henters, List.mem_singleton_self _⟩

/-- The modules of a scope are those that **the source of the module declares**. -/
theorem module_mem_declarations_iff :
    ⟨module, .module name⟩ ∈ p.declarations ↔ p.HasSubmodule module name := by
  rw [mem_declarations_iff]
  constructor
  · rintro ⟨at_, inner, henters, hdeclares⟩
    cases inner with
    | item item =>
        cases item with
        | module word parts =>
            obtain ⟨rfl, hname⟩ := Declaration.mk.inj (List.mem_singleton.mp hdeclares)
            exact ⟨word, parts, (Declares.module.inj hname).symm, henters⟩
        | _ => simp [Part.declares] at hdeclares
    | _ => exact absurd hdeclares List.not_mem_nil
  · rintro ⟨word, parts, rfl, henters⟩
    exact ⟨module, _, henters, List.mem_singleton_self _⟩

namespace Names

/-- The names that a program declares hold an item under a name when **its source declares one**. -/
theorem items_contains_iff :
    ((ofProgram p).scopeAt module).items.contains name = true ↔
      ∃ kind, p.HasItem module kind name := by
  rw [← item_mem_declarations_iff, List.contains_iff_mem, ofProgram,
    (scopeAt_foldl_addAlias ..).2.1, (shows_ofDeclarations ..).item, mem_boundBy]
  constructor
  · rintro ⟨⟨at_, what⟩, hd, rfl, hbinding⟩
    rcases what_of_mem_bindingsOf hbinding with ⟨_, h⟩ | ⟨-, rfl⟩ | ⟨h, -⟩ | ⟨_, h, -⟩
    · exact Binding.noConfusion h
    · exact hd
    · exact Binding.noConfusion h
    · exact Binding.noConfusion h
  · exact fun hd => ⟨_, hd, rfl, List.mem_singleton_self _⟩

/-- They hold a module under a name when its source declares one. -/
theorem modules_contains_iff :
    ((ofProgram p).scopeAt module).modules.contains name = true ↔
      p.HasSubmodule module name := by
  rw [← module_mem_declarations_iff, List.contains_iff_mem, ofProgram,
    (scopeAt_foldl_addAlias ..).2.2, (shows_ofDeclarations ..).module, mem_boundBy]
  constructor
  · rintro ⟨⟨at_, what⟩, hd, rfl, hbinding⟩
    rcases what_of_mem_bindingsOf hbinding with ⟨_, h⟩ | ⟨h, -⟩ | ⟨-, rfl⟩ | ⟨_, h, -⟩
    · exact Binding.noConfusion h
    · exact Binding.noConfusion h
    · exact hd
    · exact Binding.noConfusion h
  · exact fun hd => ⟨_, hd, rfl, List.mem_singleton_self _⟩

end Names

/-! ### Paths that lead nowhere -/

/-- The source of a module **offers** what a name with `rest` behind it can mean: an item of the
name that is the end of the path, or has members. -/
def Program.SourceFile.Offers (p : SourceFile) (module : List String) (name : String)
    (rest : List String) : Prop :=
  ∃ kind, p.HasItem module kind name ∧ (rest = [] ∨ kind.hasMembers = true)

/-- Names that lead from a module on **lead to no declaration**: following them through the
modules that the program declares, there comes a name for which the module it has come to declares
neither a module nor an item that the rest of the path can belong to. -/
inductive Program.SourceFile.Dangles (p : SourceFile) : List String → List String → Prop
  /-- The module declares nothing of the kind under the first name. -/
  | missing {module rest : List String} {name : String}
      (hmodule : ¬ p.HasSubmodule module name) (hitem : ¬ p.Offers module name rest) :
      Dangles p module (name :: rest)
  /-- The first name leads to a module, and no further name from there to a declaration. -/
  | within {module rest : List String} {name : String}
      (hmodule : p.HasSubmodule module name) (hitem : ¬ p.Offers module name rest)
      (h : Dangles p (module ++ [name]) rest) : Dangles p module (name :: rest)

/-- The walk along names **stops short**: it comes to a name with more behind it that is the name
of items, none of which has members. -/
inductive Program.SourceFile.StopsShort (p : SourceFile) : List String → List String → Prop
  /-- The first name is one. -/
  | here {module rest : List String} {name : String} {kind : Declared}
      (hdeclares : p.HasItem module kind name) (hitem : ¬ p.Offers module name rest) :
      StopsShort p module (name :: rest)
  /-- The first name leads to a module and to no item, and the walk stops short from there. -/
  | within {module rest : List String} {name : String}
      (hmodule : p.HasSubmodule module name)
      (hitem : ∀ kind, ¬ p.HasItem module kind name)
      (h : StopsShort p (module ++ [name]) rest) : StopsShort p module (name :: rest)

/-- A name that no item has is one that **nothing is offered** under. -/
theorem not_offers_of_none (hnone : ∀ kind, ¬ p.HasItem module kind name) :
    ¬ p.Offers module name rest :=
  fun ⟨kind, hdeclares, _⟩ => hnone kind hdeclares

/-- The walk through the scopes of a program ends nowhere exactly on the names that **lead to no
declaration**, where it does not stop short. -/
theorem isMissing_iff_dangles :
    (ofProgram p).isMissing module names = true ↔
      p.Dangles module names ∧ ¬ p.StopsShort module names := by
  induction names generalizing module with
  | nil =>
      refine iff_of_false Bool.false_ne_true fun ⟨hdangles, _⟩ => ?_
      cases hdangles
  | cons name rest ih =>
      rw [isMissing_cons]
      by_cases hitem : ∃ kind, p.HasItem module kind name
      · -- the walk ends at an item of the name, whatever its kind
        rw [if_pos (items_contains_iff.mpr hitem)]
        refine iff_of_false Bool.false_ne_true fun ⟨hdangles, hstops⟩ => ?_
        obtain ⟨kind, hdeclares⟩ := hitem
        cases hdangles with
        | missing hmodule hoffers => exact hstops (.here hdeclares hoffers)
        | within hmodule hoffers h => exact hstops (.here hdeclares hoffers)
      · have hnone := not_exists.mp hitem
        rw [if_neg (mt items_contains_iff.mp hitem)]
        by_cases hmodule : p.HasSubmodule module name
        · rw [if_pos (modules_contains_iff.mpr hmodule), ih]
          constructor
          · rintro ⟨hdangles, hstops⟩
            refine ⟨.within hmodule (not_offers_of_none hnone) hdangles, fun h => ?_⟩
            cases h with
            | here hdeclares => exact hnone _ hdeclares
            | within _ _ h => exact hstops h
          · rintro ⟨hdangles, hstops⟩
            refine ⟨?_, fun h => hstops (.within hmodule hnone h)⟩
            cases hdangles with
            | missing hother => exact absurd hmodule hother
            | within _ _ h => exact h
        · rw [if_neg (mt modules_contains_iff.mp hmodule)]
          refine iff_of_true rfl ⟨.missing hmodule (not_offers_of_none hnone), fun h => ?_⟩
          cases h with
          | here hdeclares => exact hnone _ hdeclares
          | within hother => exact hmodule hother

/-- **A call site into the program is unresolved exactly when its path leads to no declaration**,
unless the walk along the path stops short, at an item without members; then it never is. -/
theorem isUnresolved_iff_dangles {s : CallSite}
    (hpath : splitPath s.container.path = "crate" :: names) :
    (Model.ofProgram p).isUnresolved s = true ↔
      p.Dangles [] (names ++ [s.method]) ∧ ¬ p.StopsShort [] (names ++ [s.method]) := by
  have hnames : (Model.ofProgram p).names = ofProgram p := rfl
  rw [Model.isUnresolved, hpath, hnames, ← isMissing_iff_dangles]
  simp

/-! ### Programs with paths that lead nowhere -/

/-- The function of a name, with an empty body. -/
def emptyFunction (name : Word) : Item :=
  .declaration .function name []

/-- The tree of `mod m { fn g() {} }` and `fn f() { crate::m::h(); }`. -/
def missingCall : SourceFile :=
  ⟨[], [.module ⟨"m", Eq.refl true⟩ [.item (emptyFunction ⟨"g", Eq.refl true⟩)],
    functionOf [callOf [⟨"crate", Eq.refl true⟩, ⟨"m", Eq.refl true⟩, ⟨"h", Eq.refl true⟩]]]⟩

/-- The call in `missingCall` is unresolved, so that its path leads to no declaration. -/
theorem missing_call_dangles :
    (Model.ofProgram missingCall).sites = [⟨.mk "crate::m" [], "h", .path, 1, 1⟩] ∧
      missingCall.Dangles [] ["m", "h"] ∧ ¬ missingCall.StopsShort [] ["m", "h"] := by
  refine ⟨by decide +kernel, ?_⟩
  let site : CallSite := ⟨.mk "crate::m" [], "h", .path, 1, 1⟩
  have hpath : splitPath site.container.path = "crate" :: ["m"] := by decide +kernel
  have hunresolved : (Model.ofProgram missingCall).isUnresolved site = true := by decide +kernel
  exact (isUnresolved_iff_dangles hpath).mp hunresolved

/-- The tree of `fn m() {}`, `mod m {}` and `fn f() { crate::m::gen(); }`. -/
def hiddenModule : SourceFile :=
  ⟨[], [emptyFunction ⟨"m", Eq.refl true⟩, .module ⟨"m", Eq.refl true⟩ [],
    functionOf [callOf [⟨"crate", Eq.refl true⟩, ⟨"m", Eq.refl true⟩, ⟨"gen", Eq.refl true⟩]]]⟩

/-- What is called `m` in `hiddenModule` is a function. -/
theorem eq_function_of_hasItem {kind : Declared} (h : hiddenModule.HasItem [] kind "m") :
    kind = .function := by
  obtain ⟨word, parts, hword, part, hpart, henters⟩ := h
  simp only [SourceFile.parts, hiddenModule, List.nil_append, List.map_cons, List.map_nil,
    List.mem_cons, List.not_mem_nil, or_false] at hpart
  rcases hpart with rfl | rfl | rfl
  · cases henters with
    | here => rfl
    | inside hchild => exact absurd hchild List.not_mem_nil
  · cases henters with
    | inside hchild => exact absurd hchild List.not_mem_nil
  · cases henters with
    | here => rfl
    | inside hchild h =>
        -- the body is a call, and a call holds no items
        obtain rfl := List.mem_singleton.mp hchild
        cases h with
        | inside hchild h =>
            obtain rfl := List.mem_singleton.mp hchild
            cases h with
            | inside hchild h =>
                obtain rfl := List.mem_singleton.mp hchild
                cases h with
                | inside hchild => exact absurd hchild List.not_mem_nil

/-- **A function hides the module of its name**: no module declares what is called in
`hiddenModule`, the function `m` has no members that it could be, and yet the call is not unresolved
and the program passes. -/
theorem function_hides_module :
    (Model.ofProgram hiddenModule).sites = [⟨.mk "crate::m" [], "gen", .path, 1, 1⟩] ∧
      hiddenModule.Dangles [] ["m", "gen"] ∧
      (Model.ofProgram hiddenModule).isUnresolved ⟨.mk "crate::m" [], "gen", .path, 1, 1⟩ =
        false ∧
      ((Model.ofProgram hiddenModule).verdict [⟨.ofPath "std::fs", none⟩]).rejects = false := by
  have hdeclared : hiddenModule.declarations =
      [⟨[], .item "m"⟩, ⟨[], .module "m"⟩, ⟨[], .item "f"⟩] := rfl
  have hmodule : hiddenModule.HasSubmodule [] "m" :=
    ⟨⟨"m", Eq.refl true⟩, [], rfl, _, List.mem_of_getElem? (i := 1) rfl, .here⟩
  have hoffers : ¬ hiddenModule.Offers [] "m" ["gen"] := by
    rintro ⟨kind, hitem, hend | hmembers⟩
    · exact List.cons_ne_nil _ _ hend
    · rw [eq_function_of_hasItem hitem] at hmembers
      exact Bool.noConfusion hmembers
  have hnone : ¬ hiddenModule.HasSubmodule ["m"] "gen" := by
    refine mt module_mem_declarations_iff.mpr ?_
    simp [hdeclared]
  have hitem : ∀ kind, ¬ hiddenModule.HasItem ["m"] kind "gen" := by
    refine not_exists.mp (mt item_mem_declarations_iff.mpr ?_)
    simp [hdeclared]
  refine ⟨?_, .within hmodule hoffers (.missing hnone (not_offers_of_none hitem)), ?_, ?_⟩
  all_goals decide +kernel

end CapabilityGate
