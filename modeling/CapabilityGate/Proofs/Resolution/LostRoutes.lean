import Mathlib.Data.List.Induction
import CapabilityGate.Proofs.Capability.PathText
import CapabilityGate.Proofs.Resolution.Budget
import CapabilityGate.Proofs.Resolution.Candidates
import CapabilityGate.Proofs.Resolution.Nesting
import CapabilityGate.Proofs.Resolution.Reexport

/-!
# Routes that are lost

A lookup that has nothing left to pay with takes a route to lead into the program as it is written.
Where each name of a module is bound in one way, this is either where the route leads in any case,
or to a name that the program does not declare at that place: an import, which leads elsewhere, or a
name that some glob offers, is neither an item nor a module. Such a route is lost, and so is what is
made of it.

## Main definitions

* `Names.isOrderly`: whether each name of a module is bound in one way.
* `Names.Lost`: a route leads into the program to nothing that it declares.
* `Names.Taken`: what is found for a route is the route as it is written, unless this is lost.

## Main results

* `Names.member_taken`, `Names.written_taken`: what is found with any budget is the route as it is
  written, unless this is lost.
-/

namespace CapabilityGate

open Program Route

/-! ### Names that are bound in one way -/

/-- A route is **in parts** when none of its names is cut where it stands in a path. -/
def Route.InParts (r : Route) : Prop :=
  ∀ step ∈ r, isPart step.name = true

/-- Whether a module binds each name **in one way**, as an import, as an item or as a module, none
of the words for modules and types around it as an item or a module, and imports nothing but routes
in parts. -/
def Scope.isOrderly (s : Scope) : Bool :=
  (s.imports.all fun (name, target) => !s.items.contains name && !s.modules.contains name &&
    target.all fun step => isPart step.name) &&
  (s.globs.all fun glob => glob.all fun step => isPart step.name) &&
  (s.items.all fun name => !s.modules.contains name && !pathWords.contains name) &&
  s.modules.all fun name => isPart name && !pathWords.contains name

/-- Whether all modules do. -/
def Names.isOrderly (n : Names) : Bool :=
  n.scopes.all fun (_, s) => s.isOrderly

/-- What a scope binds is bound **in one way**. -/
structure Scope.Orderly (s : Scope) : Prop where
  /-- An import is neither an item nor a module, and leads along parts. -/
  import_ : ∀ name target, s.import? name = some target →
    name ∉ s.items ∧ name ∉ s.modules ∧ target.InParts
  /-- A glob leads along parts. -/
  glob : ∀ glob ∈ s.globs, glob.InParts
  /-- An item is no module, and none of the words. -/
  item : ∀ name ∈ s.items, name ∉ s.modules ∧ name ∉ pathWords
  /-- A module has a part as its name, and none of the words. -/
  module : ∀ name ∈ s.modules, isPart name = true ∧ name ∉ pathWords

/-- Whether a scope is orderly can be **computed**. -/
theorem Scope.orderly_of_isOrderly {s : Scope} (h : s.isOrderly = true) : s.Orderly := by
  simp only [isOrderly, Bool.and_eq_true, List.all_eq_true, Bool.not_eq_true',
    List.contains_eq_mem, decide_eq_false_iff_not] at h
  obtain ⟨⟨⟨himports, hglobs⟩, hitems⟩, hmodules⟩ := h
  refine ⟨fun name target hfound => ?_, hglobs, hitems, hmodules⟩
  obtain ⟨before, after, hsplit, -⟩ := List.lookup_eq_some_iff.mp hfound
  obtain ⟨⟨hitem, hmodule⟩, hparts⟩ := himports (name, target) (by rw [hsplit]; simp)
  exact ⟨hitem, hmodule, hparts⟩

/-- The names of a program are **orderly**. -/
structure Names.Orderly (n : Names) : Prop where
  /-- Its modules are nested. -/
  nested : n.Nested
  /-- Each of them binds its names in one way. -/
  scope : ∀ module, (n.scopeAt module).Orderly

/-- Whether the names of a program are orderly can be **computed**, if they are nested. -/
theorem Names.orderly_of_isOrderly {n : Names} (hn : n.Nested) (h : n.isOrderly = true) :
    n.Orderly := by
  refine ⟨hn, fun module => ?_⟩
  rw [scopeAt]
  cases hscope : n.scope? module with
  | none => exact Scope.orderly_of_isOrderly (s := .empty) rfl
  | some s =>
      obtain ⟨before, after, hsplit, -⟩ := List.lookup_eq_some_iff.mp hscope
      exact Scope.orderly_of_isOrderly (List.all_eq_true.mp h (module, s) (by rw [hsplit]; simp))

/-! ### Routes that are lost -/

namespace Names

variable {n : Names}

/-- A route is **lost** when it leads into the program, along parts, to nothing that the program
declares. -/
def Lost (n : Names) (r : Route) : Prop :=
  ∃ rest, r.map Step.name = "crate" :: rest ∧ n.isMissing [] rest = true ∧
    ∀ name ∈ rest, isPart name = true

/-- Names that lead to nothing lead to nothing **whatever comes behind them**. -/
theorem isMissing_append {module names : List String} (h : n.isMissing module names = true)
    (rest : List String) : n.isMissing module (names ++ rest) = true := by
  induction names generalizing module with
  | nil => exact Bool.noConfusion h
  | cons name names ih =>
      rw [List.cons_append, isMissing_cons] at *
      split at h
      · exact Bool.noConfusion h
      next hitem =>
        rw [if_neg hitem]
        split at h
        next hmodule => rw [if_pos hmodule, ih h]
        next hmodule => rw [if_neg hmodule]

/-- A route that goes on behind a lost one is **lost too**. -/
theorem Lost.append {r : Route} (h : n.Lost r) {route : Route} (hroute : route.InParts) :
    n.Lost (r ++ route) := by
  obtain ⟨rest, hnames, hmissing, hparts⟩ := h
  refine ⟨rest ++ route.map Step.name, by rw [List.map_append, hnames, List.cons_append],
    isMissing_append hmissing _, fun name hname => ?_⟩
  rcases List.mem_append.mp hname with hname | hname
  · exact hparts name hname
  · obtain ⟨step, hstep, rfl⟩ := List.mem_map.mp hname
    exact hroute step hstep

/-- A lost route stays lost **in place of the first step** of another one. -/
theorem Lost.substitute {r : Route} (h : n.Lost r) {route : Route} (hroute : route.InParts) :
    n.Lost (substitute r route) := by
  cases route with
  | nil => exact h
  | cons first rest =>
      have hrest : Route.InParts rest := fun step hstep => hroute step (List.mem_cons_of_mem _ hstep)
      rw [Route.substitute]
      split
      · exact h.append hrest
      · refine Lost.append ?_ hrest
        obtain ⟨more, hnames, hlost⟩ := h
        exact ⟨more, by rw [map_name_withArgs, hnames], hlost⟩

section Orderly

variable (h : n.Orderly) {module : List String} (hscope : (n.scope? module).isSome = true)

include h hscope

/-- A module with a scope is found **along the names that lead to it**. -/
theorem isMissing_of_scope (rest : List String) :
    n.isMissing [] (module ++ rest) = n.isMissing module rest := by
  induction module using List.reverseRecOn generalizing rest with
  | nil => rfl
  | append_singleton init name ih =>
      obtain ⟨hinit, hname⟩ := h.nested.declared init name hscope
      have hitem : (n.scopeAt init).items.contains name = false := by
        rw [← Bool.not_eq_true, List.contains_iff_mem]
        exact fun hitem => ((h.scope init).item name hitem).1 hname
      rw [List.append_assoc, ih hinit, List.singleton_append, isMissing_cons, hitem,
        List.contains_iff_mem.mpr hname]
      rfl

/-- The names that lead to a module with a scope are **parts**. -/
theorem isPart_of_scope : ∀ name ∈ module, isPart name = true := by
  induction module using List.reverseRecOn with
  | nil => exact fun _ hname => absurd hname List.not_mem_nil
  | append_singleton init name ih =>
      obtain ⟨hinit, hname⟩ := h.nested.declared init name hscope
      intro other hother
      rcases List.mem_append.mp hother with hother | hother
      · exact ih hinit other hother
      · obtain rfl := List.mem_singleton.mp hother
        exact ((h.scope init).module other hname).1

/-- A name that a module declares neither as an item nor as a module **is lost** in it. -/
theorem lost_of_undeclared {first : Step} {rest : Route} (hparts : Route.InParts (first :: rest))
    (hitem : first.name ∉ (n.scopeAt module).items)
    (hmodule : first.name ∉ (n.scopeAt module).modules) :
    n.Lost (inModule module (first :: rest)) := by
  refine ⟨module ++ (first :: rest).map Step.name, ?_, ?_, fun name hname => ?_⟩
  · simp [inModule, ofNames, plainStep, Function.comp_def]
  · rw [isMissing_of_scope h hscope, List.map_cons, isMissing_cons,
      if_neg (by rwa [List.contains_iff_mem]), if_neg (by rwa [List.contains_iff_mem])]
  · rcases List.mem_append.mp hname with hname | hname
    · exact isPart_of_scope h hscope name hname
    · obtain ⟨step, hstep, rfl⟩ := List.mem_map.mp hname
      exact hparts step hstep

end Orderly

/-- A lost route names **no module**. -/
theorem Lost.module?_eq_none (h : n.Orderly) {r : Route} (hlost : n.Lost r) :
    n.module? r = none := by
  obtain ⟨rest, hnames, hmissing, -⟩ := hlost
  obtain ⟨root, more, rfl, hroot, rfl⟩ := List.map_eq_cons_iff.mp hnames
  rw [module?]
  split
  next hmodule =>
    have hfound := isMissing_of_scope h (Bool.and_eq_true_iff.mp hmodule).2 []
    rw [List.append_nil] at hfound
    rw [hfound] at hmissing
    exact Bool.noConfusion hmissing
  next => rfl

/-! ### Routes that are taken as they are written -/

/-- The names of several routes. -/
def namesOf (rs : List Route) : List (List String) :=
  rs.map fun r => r.map Step.name

/-- What is found for a route in a module is what it leads to **as it is written**, unless this is
lost. -/
def Taken (n : Names) (module : List String) (route : Route) (found : List Route) : Prop :=
  n.Lost (inModule module route) ∨ namesOf found = namesOf [inModule module route]

/-- The same for what is found below a module, if anything is. -/
def TakenBelow (n : Names) (module : List String) (route : Route) (found : Option (List Route)) :
    Prop :=
  n.Lost (inModule module route) ∨ found.map namesOf = some (namesOf [inModule module route])

/-- A route that is taken as it is written. -/
theorem Taken.refl (n : Names) (module : List String) (route : Route) :
    n.Taken module route [inModule module route] :=
  Or.inr rfl

/-- What is taken from a module is taken **below it** too. -/
theorem Taken.some {module : List String} {route : Route} {found : List Route}
    (h : n.Taken module route found) : n.TakenBelow module route (some found) :=
  h.imp id (congrArg Option.some)

/-- What is found for a route below a module is found for the route **through this module**. -/
theorem Taken.into {module : List String} {first : Step} {rest : Route} {found : List Route}
    (h : n.Taken (module ++ [first.name]) rest found) : n.Taken module (first :: rest) found := by
  have hnames : (inModule (module ++ [first.name]) rest).map Step.name =
      (inModule module (first :: rest)).map Step.name := by
    simp [inModule, ofNames, plainStep]
  rcases h with ⟨more, hmore, hlost⟩ | hfound
  · exact Or.inl ⟨more, by rw [← hnames, hmore], hlost⟩
  · exact Or.inr (by rw [hfound, namesOf, namesOf, List.map_singleton, List.map_singleton, hnames])

section Taken

variable (h : n.Orderly) {module : List String} (hscope : (n.scope? module).isSome = true)

include h hscope

/-- Routes below a module are taken as they are written when **members of it** are. -/
theorem below_taken {l : Lookup} {rest : Route} (hparts : rest.InParts) {left : Nat}
    (hmember : rest ≠ [] → n.TakenBelow module rest (l.member module rest left).1) :
    n.Taken module rest (below l module rest left).1 := by
  cases rest with
  | nil => exact .refl n module []
  | cons first rest =>
      by_cases hsuper : first.name = "super"
      · have hword : "super" ∈ pathWords := by decide
        refine Or.inl (lost_of_undeclared h hscope hparts (fun hitem => ?_) fun hmodule => ?_)
        · exact ((h.scope module).item _ hitem).2 (hsuper ▸ hword)
        · exact ((h.scope module).module _ hmodule).2 (hsuper ▸ hword)
      · have hascend : ascend module (first :: rest) = (module, first :: rest) := by
          rw [ascend, beq_eq_false_iff_ne.mpr hsuper]
          rfl
        have hbelow : (below l module (first :: rest) left).1 =
            (l.member module (first :: rest) left).1.getD [inModule module (first :: rest)] := by
          rw [below, hascend]
          rfl
        rcases hmember (List.cons_ne_nil _ _) with hlost | hfound
        · exact Or.inl hlost
        · obtain ⟨found, hsome, hnames⟩ := Option.map_eq_some_iff.mp hfound
          rw [hbelow, hsome]
          exact Or.inr hnames

omit hscope in
/-- A route that starts with a module of a module is taken as it is written when **members of that
module** are. -/
theorem below_taken_into {l : Lookup} {first : Step} {rest : Route}
    (hmodule : first.name ∈ (n.scopeAt module).modules) (hparts : Route.InParts (first :: rest))
    {left : Nat}
    (hmember : rest ≠ [] → n.TakenBelow (module ++ [first.name]) rest
      (l.member (module ++ [first.name]) rest left).1) :
    n.Taken module (first :: rest) (below l (module ++ [first.name]) rest left).1 :=
  (below_taken h (h.nested.into module first.name hmodule)
    (fun step hstep => hparts step (List.mem_cons_of_mem _ hstep)) hmember).into

end Taken

/-- A module declares a name **as a module**, **as an item**, or in neither way. Where it declares
it in one of these ways, it imports nothing under it. -/
theorem Orderly.cases_declared (h : n.Orderly) (module : List String) (name : String) :
    (name ∈ (n.scopeAt module).modules ∧ (n.scopeAt module).import? name = none ∧
        name ∉ pathWords) ∨
      (name ∈ (n.scopeAt module).items ∧ name ∉ (n.scopeAt module).modules ∧
        (n.scopeAt module).import? name = none ∧ name ∉ pathWords) ∨
      (name ∉ (n.scopeAt module).items ∧ name ∉ (n.scopeAt module).modules) := by
  have hnone : name ∈ (n.scopeAt module).items ∨ name ∈ (n.scopeAt module).modules →
      (n.scopeAt module).import? name = none := by
    intro hdeclared
    cases himport : (n.scopeAt module).import? name with
    | none => rfl
    | some target =>
        obtain ⟨hitem, hmodule, -⟩ := (h.scope module).import_ name target himport
        exact absurd hdeclared (by rintro (hin | hin); exacts [hitem hin, hmodule hin])
  by_cases hmodule : name ∈ (n.scopeAt module).modules
  · exact Or.inl ⟨hmodule, hnone (Or.inr hmodule), ((h.scope module).module name hmodule).2⟩
  · by_cases hitem : name ∈ (n.scopeAt module).items
    · exact Or.inr (Or.inl ⟨hitem, hmodule, hnone (Or.inl hitem),
        ((h.scope module).item name hitem).2⟩)
    · exact Or.inr (Or.inr ⟨hitem, hmodule⟩)

/-- **Whatever its budget is**, a lookup below a module finds what the route leads to as it is
written, unless this is lost. -/
theorem member_taken (h : n.Orderly) {module : List String} {route : Route}
    (hscope : (n.scope? module).isSome = true) (hroute : route ≠ []) (hparts : route.InParts)
    (depth left : Nat) :
    n.TakenBelow module route ((n.lookup depth).member module route left).1 := by
  induction route generalizing module depth left with
  | nil => exact absurd rfl hroute
  | cons first rest ih =>
      have hcut : n.TakenBelow module (first :: rest) (some [inModule module (first :: rest)]) :=
        (Taken.refl n module _).some
      cases depth with
      | zero => exact hcut
      | succ depth =>
          cases left with
          | zero => exact hcut
          | succ left =>
              rw [lookup_member, memberRule_succ, memberPaid]
              rcases h.cases_declared module first.name with
                ⟨hmodule, himport, -⟩ | ⟨hitem, hmodule, himport, -⟩ | ⟨hitem, hmodule⟩
              · rw [himport, List.contains_iff_mem.mpr hmodule]
                refine (below_taken_into h hmodule hparts fun hne => ?_).some
                exact ih (h.nested.into module first.name hmodule) hne
                  (fun step hstep => hparts step (List.mem_cons_of_mem _ hstep)) depth left
              · rw [himport, List.contains_iff_mem.mpr hitem,
                  if_neg (by rwa [List.contains_iff_mem])]
                exact hcut
              · exact Or.inl (lost_of_undeclared h hscope hparts hitem hmodule)

/-- Whatever its budget is, a lookup in a module finds what the route leads to as it is written,
unless this is lost. -/
theorem written_taken (h : n.Orderly) {module : List String} {route : Route}
    (hscope : (n.scope? module).isSome = true) (hroute : route ≠ []) (hparts : route.InParts)
    (owner : Option TypeName) (skip : Option String) (depth left : Nat) :
    n.Taken module route ((n.lookup depth).written module route owner skip left).1 := by
  obtain ⟨first, rest, rfl⟩ := List.exists_cons_of_ne_nil hroute
  have hcut : n.Taken module (first :: rest) [inModule module (first :: rest)] := .refl n module _
  cases depth with
  | zero => exact hcut
  | succ depth =>
      cases left with
      | zero => exact hcut
      | succ left =>
          rw [lookup_written]
          rcases h.cases_declared module first.name with
            ⟨hmodule, himport, hword⟩ | ⟨hitem, hmodule, himport, hword⟩ | ⟨hitem, hmodule⟩
          · rw [writtenRule_name hword,
              byName_module himport (List.contains_iff_mem.mpr hmodule)]
            refine below_taken_into h hmodule hparts fun hne => ?_
            exact member_taken h (h.nested.into module first.name hmodule) hne
              (fun step hstep => hparts step (List.mem_cons_of_mem _ hstep)) depth left
          · rw [writtenRule_name hword, byName_item himport
              (by rwa [← Bool.not_eq_true, List.contains_iff_mem])
              (List.contains_iff_mem.mpr hitem)]
            exact hcut
          · exact Or.inl (lost_of_undeclared h hscope hparts hitem hmodule)

end Names

end CapabilityGate
