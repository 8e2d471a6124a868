import CapabilityGate.Proofs.Resolution.Reexport

/-!
# Every path means something

The lookup of a path may fail to find what a path leads to, but it never comes back with nothing:
what is not found stands for itself, or below the module that it is looked for in. So a path has at
least one candidate, whatever the imports and globs of the program are and however far the budget
reaches.

## Main definitions

* `Names.HasTargets`: no import is without a target.
* `Lookup.Fills`: lookups that find something for every route.

## Main results

* `candidates_ne_nil`: a route that is not empty has a candidate.
-/

namespace CapabilityGate

open Program Route

/-! ### Routes that are not empty -/

/-- A route with other arguments has **the same names**. -/
theorem Route.map_name_withArgs (r : Route) (args : List TypeName) :
    (r.withArgs args).map Step.name = r.map Step.name := by
  fun_induction withArgs args r with
  | case1 => rfl
  | case2 => rfl
  | case3 step rest hrest ih => rw [List.map_cons, List.map_cons, ih]

/-- A route stays a route **with other arguments**. -/
theorem Route.withArgs_ne_nil {r : Route} (h : r ≠ []) (args : List TypeName) :
    r.withArgs args ≠ [] := by
  cases r with
  | nil => exact absurd rfl h
  | cons first rest => cases rest <;> exact List.cons_ne_nil _ _

/-- The text of a path spells at least one step. -/
theorem Route.ofPath_ne_nil (path : String) : ofPath path ≠ [] := by
  simp [ofPath, ofNames, splitPath_ne_nil]

/-- The route to a type is **not empty**, since a type has a name of its own. -/
theorem Route.ofType_ne_nil (t : TypeName) : ofType t ≠ [] :=
  withArgs_ne_nil (ofPath_ne_nil t.path) t.args

/-- A step behind a route names an item **in the type** that the route names. -/
theorem Route.split?_concat_eq {r : Route} (h : r ≠ []) (s : Step) :
    split? (r ++ [s]) = some (r.type, s.name) := by
  rcases List.eq_nil_or_concat r with rfl | ⟨front, owner, rfl⟩
  · exact absurd rfl h
  · simp [split?, type, path, lastArgs]

/-! ### Imports have targets -/

/-- **No import** of a scope is without a target. -/
def Scope.HasTargets (s : Scope) : Prop :=
  ∀ name target, s.import? name = some target → target ≠ []

/-- No import of any module is without a target. -/
def Names.HasTargets (n : Names) : Prop :=
  ∀ module, (n.scopeAt module).HasTargets

/-- A scope whose imports have targets keeps that with **one more that has**. -/
theorem Scope.HasTargets.addImport {s : Scope} (h : s.HasTargets) (name : String) {target : Route}
    (htarget : target ≠ []) : (s.addImport name target).HasTargets := by
  intro other found hfound
  rw [Scope.import?, Scope.addImport, List.lookup_cons] at hfound
  split at hfound
  · exact Option.some.inj hfound ▸ htarget
  · exact h other found hfound

namespace Names.HasTargets

variable {n : Names}

/-- A change that keeps the targets of a scope keeps those of all modules. -/
theorem update (h : n.HasTargets) (module : List String) {f : Scope → Scope}
    (hf : ∀ s : Scope, s.HasTargets → (f s).HasTargets) : (n.update module f).HasTargets := by
  intro other
  rw [scopeAt_update]
  split
  · exact hf _ (h other)
  · exact h other

/-- Names whose imports have targets do so with **one more import**: one without a target is not
added. -/
theorem addImport (h : n.HasTargets) (module : List String) (name : String)
    (target : List String) : (n.addImport module name target).HasTargets := by
  rw [Names.addImport]
  split
  next => exact h
  next hkept =>
    refine h.update module fun s hs => hs.addImport name ?_
    simp only [Bool.or_eq_true, not_or, List.isEmpty_iff] at hkept
    simpa [ofNames] using hkept.2

/-- They do so with one more leaf of an import tree. -/
theorem addLeaf (h : n.HasTargets) (module : List String) (leaf : Import) :
    (n.addLeaf module leaf).HasTargets := by
  cases leaf with
  | name name target => exact h.addImport module name target
  | glob target => exact h.update module fun s hs => hs

/-- They do so with all leaves of one. -/
theorem foldl_addLeaf (h : n.HasTargets) (module : List String) (leaves : List Import) :
    (leaves.foldl (Names.addLeaf module) n).HasTargets := by
  induction leaves generalizing n with
  | nil => exact h
  | cons leaf rest ih =>
      rw [List.foldl_cons]
      exact ih (h.addLeaf module leaf)

/-- They do so with one more declaration, **whatever it declares**. -/
theorem declare (h : n.HasTargets) (d : Declaration) : (n.declare d).HasTargets := by
  obtain ⟨module, what⟩ := d
  cases what with
  | item name =>
      have hlocal : (n.addLocal name).HasTargets := h
      simp only [Names.declare]
      exact hlocal.update module fun s hs => hs
  | module name =>
      have hlocal : (n.addLocal name).HasTargets := h
      have hmodule : ((n.addLocal name).update module (.addModule name)).HasTargets :=
        hlocal.update module fun s hs => hs
      simp only [Names.declare]
      exact hmodule.update (module ++ [name]) fun s hs => hs
  | use global tree =>
      simp only [Names.declare]
      exact h.foldl_addLeaf module (tree.imports [])
  | crate name alias_ =>
      cases alias_ with
      | none => exact h
      | some alias_ => exact h.addImport module alias_ [name]
  | typeAlias name type => exact h

/-- A name for a type leads to the type. -/
theorem addAlias (h : n.HasTargets) (d : Declaration) : (n.addAlias d).HasTargets := by
  obtain ⟨module, what⟩ := d
  cases what with
  | typeAlias name type =>
      exact h.update module fun s hs => hs.addImport name (Route.ofType_ne_nil _)
  | _ => exact h

/-- That all imports have targets is kept by **any number of steps** each of which keeps it. -/
theorem foldl (h : n.HasTargets) {f : Names → Declaration → Names}
    (hf : ∀ {n : Names}, n.HasTargets → ∀ d, (f n d).HasTargets) (ds : List Declaration) :
    (ds.foldl f n).HasTargets := by
  induction ds generalizing n with
  | nil => exact h
  | cons d rest ih => exact ih (hf h d)

/-- No declaration adds an import without a target. -/
theorem ofDeclarations (ds : List Declaration) : (Names.ofDeclarations ds).HasTargets := by
  have hempty : Names.empty.HasTargets := by
    intro module name target hfound
    rw [scopeAt_empty] at hfound
    exact absurd hfound (Option.some_ne_none target).symm
  exact hempty.foldl declare ds

/-- **No import of a program** is without a target. -/
theorem ofProgram (p : SourceFile) : (Names.ofProgram p).HasTargets :=
  (ofDeclarations p.declarations).foldl addAlias p.declarations

end Names.HasTargets

/-! ### Computations that find something -/

/-- A computation has results **of one kind**, whatever is left of the budget. -/
def Paid.Yields {α : Type} (good : α → Prop) (c : Paid α) : Prop :=
  ∀ left, good (c left).1

namespace Paid.Yields

variable {α β : Type} {good : α → Prop} {fine : β → Prop}

/-- A value that is good is **yielded for nothing**. -/
theorem pure {a : α} (h : good a) : Paid.Yields good (Pure.pure a) :=
  fun _ => h

/-- A computation yields what is good if it does **behind all that the one before it yields**. -/
theorem bind {c : Paid α} {f : α → Paid β} (h : Paid.Yields good c)
    (hf : ∀ a, good a → Paid.Yields fine (f a)) : Paid.Yields fine (c >>= f) :=
  fun left => hf (c left).1 (h left) (c left).2

/-- What is known of no result may be anything. -/
theorem of_any {c : Paid α} {f : α → Paid β} (hf : ∀ a, Paid.Yields fine (f a)) :
    Paid.Yields fine (c >>= f) :=
  fun left => hf (c left).1 (c left).2

end Paid.Yields

/-- Ways of looking up **find something** for every route that is not empty. Below a module they
may find that the module has no such name. -/
structure Lookup.Fills (l : Lookup) : Prop where
  /-- Routes that are written in a module. -/
  written : ∀ module route owner skip, route ≠ [] →
    Paid.Yields (· ≠ []) (l.written module route owner skip)
  /-- Routes below a module. -/
  member : ∀ module route, Paid.Yields (· ≠ some []) (l.member module route)

namespace Names

variable {n : Names} {l : Lookup}

/-- What is found below a module **is a route**, if the lookups find routes. -/
theorem below_fills (h : l.Fills) (module : List String) (route : Route) :
    Paid.Yields (· ≠ []) (below l module route) := by
  rw [below]
  split
  split
  · exact .pure (List.cons_ne_nil _ _)
  · refine (h.member _ _).bind fun found hfound => .pure ?_
    cases found with
    | none => exact List.cons_ne_nil _ _
    | some candidates => exact fun hnil => hfound (congrArg some hnil)

/-- So is what is found through an import. -/
theorem throughImport_fills (h : l.Fills) (module : List String) (name : String)
    {target : Route} (htarget : target ≠ []) (route : Route) :
    Paid.Yields (· ≠ []) (throughImport l module name target route) := by
  rw [throughImport]
  refine (h.written module target none (some name) htarget).bind fun found hfound => .pure ?_
  simpa using hfound

/-- A name that no module declares stands at least for itself. -/
theorem undeclared_fills (l : Lookup) (module : List String) (first : Step) (rest : Route) :
    Paid.Yields (· ≠ []) (n.undeclared l module first rest) := by
  have hordered : ∀ found : List Route, Paid.Yields (· ≠ [])
      (if !rest.isEmpty && startsLower first.name
        then Pure.pure (literal (first :: rest) :: found)
        else (Pure.pure (found ++ [literal (first :: rest)]) : Paid (List Route))) := by
    intro found
    split
    · exact .pure (List.cons_ne_nil _ _)
    · exact .pure (by simp)
  rw [undeclared]
  split
  · exact .of_any hordered
  · exact .of_any hordered

/-- What is found by a name **is a route** as well. -/
theorem byName_fills (h : l.Fills) (hn : n.HasTargets) (module : List String) (first : Step)
    (rest : Route) (skip : Option String) :
    Paid.Yields (· ≠ []) (n.byName l module first rest skip) := by
  rw [byName]
  split
  next target htarget =>
    have himport : (n.scopeAt module).import? first.name = some target := by
      split at htarget
      · exact absurd htarget (Option.some_ne_none target).symm
      · exact htarget
    exact throughImport_fills h module first.name (hn module first.name target himport) _
  next =>
    split
    · exact below_fills h _ rest
    · split
      · exact .pure (List.cons_ne_nil _ _)
      · split
        · exact .pure (List.cons_ne_nil _ _)
        · exact undeclared_fills l module first rest

/-- **The rule for written routes** finds routes if the lookups that it asks do. -/
theorem writtenRule_fills (h : l.Fills) (hn : n.HasTargets) (module : List String) {route : Route}
    (owner : Option TypeName) (skip : Option String) (hroute : route ≠ []) :
    Paid.Yields (· ≠ []) (n.writtenRule l module route owner skip) := by
  cases route with
  | nil => exact absurd rfl hroute
  | cons first rest =>
      rw [writtenRule]
      refine .of_any fun paid => ?_
      split
      · exact .pure (List.cons_ne_nil _ _)
      · split
        · exact below_fills h [] rest
        · split
          · exact below_fills h module rest
          · split
            · exact below_fills h module.dropLast rest
            · split
              · exact .pure (List.cons_ne_nil _ _)
              · exact byName_fills h hn module first rest skip

/-- What is found in a module is never an empty list: nothing found counts as an unknown name. -/
theorem memberRule_fills (h : l.Fills) (hn : n.HasTargets) (module : List String) (route : Route) :
    Paid.Yields (· ≠ some []) (n.memberRule l module route) := by
  have hsome : ∀ found : List Route, found ≠ [] → some found ≠ some [] := by simp
  cases route with
  | nil => exact .pure (Option.some_ne_none _).symm
  | cons first rest =>
      rw [memberRule]
      refine .of_any fun paid => ?_
      split
      · exact .pure (hsome _ (List.cons_ne_nil _ _))
      · split
        next => exact .pure (Option.some_ne_none _).symm
        next scope hscope =>
          have hat : n.scopeAt module = scope := by rw [scopeAt, hscope]; rfl
          split
          next target htarget =>
            have hne := hn module first.name target (hat ▸ htarget)
            exact (throughImport_fills h module first.name hne _).bind
              fun found hfound => .pure (hsome found hfound)
          next =>
            split
            · exact (below_fills h _ rest).bind fun found hfound => .pure (hsome found hfound)
            · split
              · exact .pure (hsome _ (List.cons_ne_nil _ _))
              · refine .of_any fun found => .pure ?_
                cases found with
                | nil => exact (Option.some_ne_none _).symm
                | cons r rest => exact hsome _ (List.cons_ne_nil _ _)

/-- Lookups find something, however deep they may go. -/
theorem lookup_fills (hn : n.HasTargets) (depth : Nat) : (n.lookup depth).Fills := by
  induction depth with
  | zero =>
      refine ⟨fun module route owner skip hroute => .pure ?_, fun module route => .pure ?_⟩
      · cases route with
        | nil => exact absurd rfl hroute
        | cons first rest => exact List.cons_ne_nil _ _
      · cases route with
        | nil => exact (Option.some_ne_none _).symm
        | cons first rest => simp
  | succ depth ih =>
      refine ⟨fun module route owner skip hroute => ?_, fun module route => ?_⟩
      · rw [lookup_written]
        exact writtenRule_fills ih hn module owner skip hroute
      · rw [lookup_member]
        exact memberRule_fills ih hn module route

end Names

/-- **Every path means something**: a route that is not empty has a candidate, wherever a program
holds it. -/
theorem candidates_ne_nil (p : SourceFile) (module : List String) {route : Route}
    (owner : Option TypeName) (hroute : route ≠ []) :
    (Names.ofProgram p).candidates module route owner ≠ [] :=
  (Names.lookup_fills (.ofProgram p) Names.lookupBudget).written module route owner none hroute
    Names.lookupBudget

end CapabilityGate
