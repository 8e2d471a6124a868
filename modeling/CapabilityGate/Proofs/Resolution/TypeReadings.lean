import CapabilityGate.Proofs.Capability.PathParts
import CapabilityGate.Proofs.Resolution.Candidates
import CapabilityGate.Proofs.Resolution.Nesting

/-!
# Paths below a type

A path that goes on behind the path of a type is looked up in the same way as this is: its
candidates are those of the type, each with one name more. This is not so for the path of a module,
whose names are looked up where the module declares them.

## Main definitions

* `Added`: routes are others with a step behind them.

## Main results

* `Names.lookup_adds`: the lookup of a route with one more step finds what that of the route finds.
* `Names.candidates_concat`: so do its candidates.
-/

namespace CapabilityGate

open Program Route

/-! ### Routes with one more step -/

/-- The second routes are the first ones with a **step behind them**, in whatever order. -/
def Added (s : Step) (rs more : List Route) : Prop :=
  ∀ m, m ∈ more ↔ ∃ r ∈ rs, m = r ++ [s]

namespace Added

variable {s : Step} {rs more rs' more' : List Route}

/-- Images with a step behind them are **the images, with the step**. -/
theorem map {α : Type} (s : Step) (f : α → Route) (xs : List α) :
    Added s (xs.map f) (xs.map fun x => f x ++ [s]) := by
  intro m
  simp [eq_comm]

/-- No routes are none with a step behind them. -/
theorem nil (s : Step) : Added s [] [] :=
  .map s id []

/-- One route **with a step behind it** has this step behind it. -/
theorem singleton (s : Step) (r : Route) : Added s [r] [r ++ [s]] :=
  .map s id [r]

/-- Of two lists of routes **each gets its own** step. -/
theorem append (h : Added s rs more) (h' : Added s rs' more') :
    Added s (rs ++ rs') (more ++ more') := by
  intro m
  rw [List.mem_append, h m, h' m]
  simp only [List.mem_append, or_and_right, exists_or]

/-- The order of the routes does not count. -/
theorem congr (h : Added s rs more) (hrs : ∀ r, r ∈ rs ↔ r ∈ rs')
    (hmore : ∀ m, m ∈ more ↔ m ∈ more') : Added s rs' more' := by
  intro m
  rw [← hmore, h m]
  exact exists_congr fun r => and_congr_left fun _ => hrs r

/-- Routes with a step behind them are there **exactly if the routes are**. -/
theorem isEmpty_eq (h : Added s rs more) : more.isEmpty = rs.isEmpty := by
  cases rs with
  | nil =>
      cases more with
      | nil => rfl
      | cons m rest =>
          obtain ⟨r, hr, -⟩ := (h m).mp (List.mem_cons_self ..)
          exact absurd hr List.not_mem_nil
  | cons r rest =>
      cases more with
      | nil => exact absurd ((h _).mpr ⟨r, List.mem_cons_self .., rfl⟩) List.not_mem_nil
      | cons m more => rfl

end Added

/-- A step behind a route stands behind it when its first step is **replaced** too. -/
theorem Route.substitute_concat (target : Route) {route : Route} (h : route ≠ []) (s : Step) :
    substitute target (route ++ [s]) = substitute target route ++ [s] := by
  obtain ⟨first, rest, rfl⟩ := List.exists_cons_of_ne_nil h
  simp [substitute]

/-- A step behind a route stands behind it **below a module** too. -/
theorem Route.inModule_concat (module : List String) (route : Route) (s : Step) :
    inModule module (route ++ [s]) = inModule module route ++ [s] := by
  simp [inModule]

/-- So it does when the route is **taken as it is written**. -/
theorem Names.literal_concat {route : Route} (h : route ≠ []) (s : Step) :
    literal (route ++ [s]) = literal route ++ [s] := by
  obtain ⟨first, rest, rfl⟩ := List.exists_cons_of_ne_nil h
  rw [List.cons_append, literal, literal]
  split <;> rfl

/-! ### Routes to types -/

/-- Other arguments leave the **path** of a route as it is. -/
theorem Route.path_withArgs (r : Route) (args : List TypeName) :
    (r.withArgs args).path = r.path := by
  rw [path, path, map_name_withArgs]

/-- They are those of **its last step** then. -/
theorem Route.lastArgs_withArgs {r : Route} (h : r ≠ []) (args : List TypeName) :
    (r.withArgs args).lastArgs = args := by
  fun_induction withArgs args r with
  | case1 => exact absurd rfl h
  | case2 => rfl
  | case3 step rest hrest ih =>
      obtain ⟨second, more, hcons⟩ := List.exists_cons_of_ne_nil (withArgs_ne_nil hrest args)
      have hlast := ih hrest
      rw [hcons] at hlast ⊢
      rwa [lastArgs, List.getLast?_cons_cons]

/-- The route to a type **names the type**, with its path in normal form. -/
theorem Route.type_ofType (t : TypeName) : (ofType t).type = .apply t.path t.args := by
  have hpath : (ofPath t.path).path = normalPath t.path := by
    have hnames : ∀ names : List String, (ofNames names).map Step.name = names := fun names => by
      simp [ofNames, plainStep, Function.comp_def]
    rw [path, ofPath, hnames, joinPath_splitPath]
  rw [type, ofType, path_withArgs, lastArgs_withArgs (ofPath_ne_nil _), hpath,
    TypeName.apply, TypeName.apply, normalPath_normalPath]

/-- The type that a route names has a path in normal form, so **the route to it** names it. -/
theorem Route.type_ofType_type (r : Route) : (ofType r.type).type = r.type := by
  have hnormal := normalPath_normalPath r.path
  rw [type_ofType]
  simp only [type, TypeName.apply, TypeName.path, TypeName.args, hnormal]

/-! ### Computations that add a step -/

/-- The second computation **adds a step** to what the first one finds, and pays the same, unless
the first one finds a module of the program. -/
def Paid.Adds (n : Names) (s : Step) (c d : Paid (List Route)) : Prop :=
  ∀ left, (∀ r ∈ (c left).1, n.module? r = none) →
    (d left).2 = (c left).2 ∧ Added s (c left).1 (d left).1

/-- It does so to what the first one finds, **if that finds anything**. -/
def Paid.AddsToAny (n : Names) (s : Step) (c d : Paid (Option (List Route))) : Prop :=
  ∀ left, (∀ rs, (c left).1 = some rs → ∀ r ∈ rs, n.module? r = none) →
    (d left).2 = (c left).2 ∧ Option.Rel (Added s) (c left).1 (d left).1

/-- A lookup **adds steps** when it finds for each route with one more step what it finds for the
route, with that step. -/
structure Lookup.Adds (n : Names) (s : Step) (l : Lookup) : Prop where
  /-- Routes that are written in a module with a scope. -/
  written : ∀ module route owner skip, (n.scope? module).isSome = true → route ≠ [] →
    Paid.Adds n s (l.written module route owner skip) (l.written module (route ++ [s]) owner skip)
  /-- Routes below a module. -/
  member : ∀ module route, route ≠ [] →
    Paid.AddsToAny n s (l.member module route) (l.member module (route ++ [s]))

namespace Paid

variable {n : Names} {s : Step} {c d : Paid (List Route)}

/-- Two lists that are there from the start, one with the step, **pay nothing**. -/
theorem Adds.of_eq {rs more : List Route} (h : Added s rs more) :
    Adds n s (Pure.pure rs) (Pure.pure more) :=
  fun _ _ => ⟨rfl, h⟩

/-- One route and the same with the step. -/
theorem Adds.singleton {r m : Route} (h : m = r ++ [s]) :
    Adds n s (Pure.pure [r]) (Pure.pure [m]) := by
  subst h
  exact .of_eq (.singleton s r)

/-- What is made of the routes that are found has the step too, if it **holds on to them**. -/
theorem Adds.map (h : Adds n s c d) {f g : List Route → List Route} (hf : ∀ rs, rs ⊆ f rs)
    (hfg : ∀ {rs more : List Route}, Added s rs more → Added s (f rs) (g more)) :
    Adds n s (do return f (← c)) (do return g (← d)) := by
  intro left hnone
  obtain ⟨hleft, hadded⟩ := h left fun r hr => hnone r (hf _ hr)
  exact ⟨hleft, hfg hadded⟩

/-- What follows a computation that finds nothing by itself adds a step when **both its sequels**
do. -/
theorem Adds.after {α : Type} (c : Paid α) {f g : α → Paid (List Route)}
    (h : ∀ a, Adds n s (f a) (g a)) : Adds n s (c >>= f) (c >>= g) :=
  fun left hnone => h (c left).1 (c left).2 hnone

/-- So does what follows a computation, **whether or not it finds anything**. -/
theorem AddsToAny.after {α : Type} (c : Paid α) {f g : α → Paid (Option (List Route))}
    (h : ∀ a, AddsToAny n s (f a) (g a)) : AddsToAny n s (c >>= f) (c >>= g) :=
  fun left hnone => h (c left).1 (c left).2 hnone

/-- Nothing is found with one more step **where nothing is found**. -/
theorem AddsToAny.nothing : AddsToAny n s (Pure.pure none) (Pure.pure none) :=
  fun _ _ => ⟨rfl, .none⟩

/-- One route is found with one more step. -/
theorem AddsToAny.one {r m : Route} (h : m = r ++ [s]) :
    AddsToAny n s (Pure.pure (some [r])) (Pure.pure (some [m])) := by
  subst h
  exact fun _ _ => ⟨rfl, .some (.singleton s r)⟩

/-- Computations for each member of a list add a step when **each of them** does. -/
theorem Adds.mapM {α : Type} {f g : α → Paid (List Route)} (h : ∀ a, Adds n s (f a) (g a))
    (xs : List α) :
    Adds n s (do return (← xs.mapM f).flatten) (do return (← xs.mapM g).flatten) := by
  induction xs with
  | nil => exact .of_eq fun m => by simp
  | cons x rest ih =>
      intro left hnone
      have hcons : ∀ f : α → Paid (List Route),
          ((do return (← (x :: rest).mapM f).flatten) : Paid (List Route)) left =
            ((f x left).1 ++ (rest.mapM f (f x left).2).1.flatten,
              (rest.mapM f (f x left).2).2) := by
        intro f
        rw [List.mapM_cons]
        rfl
      rw [hcons f] at hnone ⊢
      rw [hcons g]
      obtain ⟨hleft, hfirst⟩ := h x left fun r hr => hnone r (List.mem_append_left _ hr)
      obtain ⟨hleft', hrest⟩ := ih (f x left).2 fun r hr =>
        hnone r (List.mem_append_right _ hr)
      rw [hleft]
      exact ⟨hleft', hfirst.append hrest⟩

/-- What is found **or else a route of one's own** is found with one more step. -/
theorem AddsToAny.getD {c d : Paid (Option (List Route))} (h : AddsToAny n s c d)
    {rs more : List Route} (hd : Added s rs more) :
    Adds n s (do return (← c).getD rs) (do return (← d).getD more) := by
  intro left hnone
  have hnone' : ∀ r ∈ (c left).1.getD rs, n.module? r = none := hnone
  obtain ⟨hleft, hfound⟩ := h left fun found hfound r hr => hnone' r (by rw [hfound]; exact hr)
  refine ⟨hleft, ?_⟩
  change Added s ((c left).1.getD rs) ((d left).1.getD more)
  revert hfound
  generalize (c left).1 = a
  generalize (d left).1 = b
  rintro (h | -)
  · exact h
  · exact hd

/-- What is found for sure is found. -/
theorem Adds.some (h : Adds n s c d) :
    AddsToAny n s (do return some (← c)) (do return some (← d)) := by
  intro left hnone
  obtain ⟨hleft, hadded⟩ := h left (hnone _ rfl)
  exact ⟨hleft, .some hadded⟩

/-- Finding nothing counts as **not being there**, with one more step or without it. -/
theorem Adds.orNone (h : Adds n s c d) :
    AddsToAny n s (do let found ← c; return if found.isEmpty then none else Option.some found)
      (do let found ← d; return if found.isEmpty then none else Option.some found) := by
  intro left hnone
  have hnone' : ∀ r ∈ (c left).1, n.module? r = none := by
    intro r hr
    refine hnone (c left).1 ?_ r hr
    change (if (c left).1.isEmpty then Option.none else Option.some (c left).1) = _
    rw [if_neg]
    intro hempty
    rw [List.isEmpty_iff.mp hempty] at hr
    exact List.not_mem_nil hr
  obtain ⟨hleft, hadded⟩ := h left hnone'
  refine ⟨hleft, ?_⟩
  change Option.Rel (Added s) (if (c left).1.isEmpty then Option.none else Option.some (c left).1)
    (if (d left).1.isEmpty then Option.none else Option.some (d left).1)
  rw [hadded.isEmpty_eq]
  split
  · exact .none
  · exact .some hadded

end Paid

namespace Names

variable {n : Names} {s : Step} {l : Lookup}

/-- The module that a route along a module with a scope leads to. -/
theorem module?_inModule_nil {module : List String} (h : (n.scope? module).isSome = true) :
    n.module? (inModule module []) = some module := by
  have hnames : (ofNames module).map Step.name = module := by
    simp [ofNames, plainStep, Function.comp_def]
  rw [inModule, List.append_nil, module?, hnames, h]
  rfl

/-- Going up some modules and then along a route **does not depend** on how the route goes on,
unless it goes up only. -/
theorem ascend_concat (hn : n.Nested) (s : Step) (route : Route) {module : List String}
    (hscope : (n.scope? module).isSome = true) :
    (n.scope? (ascend module route).1).isSome = true ∧
      ((ascend module route).2 ≠ [] →
        ascend module (route ++ [s]) =
          ((ascend module route).1, (ascend module route).2 ++ [s])) := by
  induction route generalizing module with
  | nil => exact ⟨hscope, fun h => absurd rfl h⟩
  | cons first rest ih =>
      rw [List.cons_append, ascend, ascend]
      split
      · exact ih (hn.above hscope)
      · exact ⟨hscope, fun _ => rfl⟩

section Rules

variable (hn : n.Nested) (h : l.Adds n s)

include h

/-- A route below a module goes **up and down as it does** without the step behind it. -/
theorem below_adds (hn : n.Nested) {module : List String}
    (hscope : (n.scope? module).isSome = true) (route : Route) :
    Paid.Adds n s (below l module route) (below l module (route ++ [s])) := by
  obtain ⟨hup, hconcat⟩ := ascend_concat hn s route hscope
  rw [below, below]
  cases hascend : ascend module route with
  | mk up rest =>
      rw [hascend] at hup hconcat
      cases rest with
      | nil =>
          intro left hnone
          have hmodule := hnone (inModule up []) (List.mem_singleton.mpr rfl)
          rw [module?_inModule_nil hup] at hmodule
          exact absurd hmodule (Option.some_ne_none _)
      | cons first rest =>
          rw [hconcat (List.cons_ne_nil _ _)]
          refine (h.member up (first :: rest) (List.cons_ne_nil _ _)).getD ?_
          rw [inModule_concat]
          exact .singleton s _

omit h in
/-- A step behind a name that is imported stands **behind its target**. -/
theorem throughImport_adds (l : Lookup) (module : List String) (name : String) (target : Route)
    {route : Route} (hroute : route ≠ []) :
    Paid.Adds n s (throughImport l module name target route)
      (throughImport l module name target (route ++ [s])) := by
  refine .after _ fun found => .of_eq ?_
  simp only [substitute_concat _ hroute]
  exact .map s _ found

/-- What a glob gives for a route has the step **behind what it gives for the route alone**. -/
theorem throughGlob_adds {route : Route} (hroute : route ≠ []) (above : Route) :
    Paid.Adds n s (n.throughGlob l route above) (n.throughGlob l (route ++ [s]) above) := by
  rw [throughGlob, throughGlob]
  split
  · exact (h.member _ route hroute).getD (.nil s)
  · rw [← List.append_assoc]
    exact .singleton rfl

/-- So has what all globs of a module give. -/
theorem throughGlobs_adds (module : List String) {route : Route} (hroute : route ≠ []) :
    Paid.Adds n s (n.throughGlobs l module route) (n.throughGlobs l module (route ++ [s])) := by
  rw [throughGlobs, throughGlobs]
  split
  · exact .of_eq (.nil s)
  · refine .mapM (fun glob => .after _ fun aboves => ?_) _
    exact .mapM (fun above => throughGlob_adds h hroute above) aboves

/-- So has a name that its module does not declare. -/
theorem undeclared_adds (module : List String) (first : Step) (rest : Route) :
    Paid.Adds n s (n.undeclared l module first rest)
      (n.undeclared l module first (rest ++ [s])) := by
  have hliteral : Added s [literal (first :: rest)] [literal (first :: (rest ++ [s]))] := by
    rw [← List.cons_append, literal_concat (List.cons_ne_nil _ _)]
    exact .singleton s _
  rw [undeclared, undeclared]
  generalize literal (first :: rest) = asWritten at hliteral ⊢
  generalize literal (first :: (rest ++ [s])) = asWritten' at hliteral ⊢
  generalize (!rest.isEmpty && startsLower first.name) = before
  generalize (!(rest ++ [s]).isEmpty && startsLower first.name) = before'
  -- the reading as it is written stands before the others or behind them
  have hordered : ∀ {found found' : List Route}, Added s found found' →
      Added s (if before then asWritten :: found else found ++ [asWritten])
        (if before' then asWritten' :: found' else found' ++ [asWritten']) := by
    intro found found' hfound
    refine (hliteral.append hfound).congr ?_ ?_
    · cases before <;> simp [or_comm]
    · cases before' <;> simp [or_comm]
  have hread : ∀ {c d : Paid (List Route)}, Paid.Adds n s c d →
      Paid.Adds n s
        (c >>= fun found =>
          if before = true then pure (asWritten :: found) else pure (found ++ [asWritten]))
        (d >>= fun found =>
          if before' = true then pure (asWritten' :: found) else pure (found ++ [asWritten'])) := by
    intro c d hcd
    have hmap := hcd.map (f := fun found =>
      if before then asWritten :: found else found ++ [asWritten]) (fun found => ?_) hordered
    · cases before <;> cases before' <;> exact hmap
    · cases before <;> simp
  split
  · exact hread (.of_eq (.nil s))
  · exact hread (throughGlobs_adds h module (List.cons_ne_nil first rest))

include hn

/-- So has a route **by its first name**. -/
theorem byName_adds (module : List String) (first : Step) (rest : Route) (skip : Option String) :
    Paid.Adds n s (n.byName l module first rest skip)
      (n.byName l module first (rest ++ [s]) skip) := by
  rw [byName, byName]
  split
  · exact throughImport_adds l module first.name _ (List.cons_ne_nil first rest)
  · split
    next hmodule =>
      exact below_adds h hn (hn.into module first.name (List.contains_iff_mem.mp hmodule)) rest
    · split
      · exact .singleton (inModule_concat module (first :: rest) s)
      · split
        · exact .singleton (substitute_concat _ (List.cons_ne_nil first rest) s)
        · exact undeclared_adds h module first rest

/-- **The rule for written routes** adds a step if the lookups that it asks do. -/
theorem writtenRule_adds {module : List String} {route : Route} (owner : Option TypeName)
    (skip : Option String) (hscope : (n.scope? module).isSome = true) (hroute : route ≠ []) :
    Paid.Adds n s (n.writtenRule l module route owner skip)
      (n.writtenRule l module (route ++ [s]) owner skip) := by
  obtain ⟨first, rest, rfl⟩ := List.exists_cons_of_ne_nil hroute
  rw [List.cons_append, writtenRule, writtenRule]
  refine .after _ fun paid => ?_
  split
  · exact .singleton (inModule_concat module (first :: rest) s)
  · split
    · exact below_adds h hn hn.root rest
    · split
      · exact below_adds h hn hscope rest
      · split
        · exact below_adds h hn (hn.above hscope) rest
        · split
          · exact .singleton (substitute_concat _ (List.cons_ne_nil first rest) s)
          · exact byName_adds hn h module first rest skip

/-- So does **the rule for routes below a module**. -/
theorem memberRule_adds (module : List String) {route : Route} (hroute : route ≠ []) :
    Paid.AddsToAny n s (n.memberRule l module route) (n.memberRule l module (route ++ [s])) := by
  obtain ⟨first, rest, rfl⟩ := List.exists_cons_of_ne_nil hroute
  rw [List.cons_append, memberRule, memberRule]
  refine .after _ fun paid => ?_
  split
  · exact .one (inModule_concat module (first :: rest) s)
  · split
    next => exact .nothing
    next scope hscope =>
      split
      · exact (throughImport_adds l module first.name _ (List.cons_ne_nil first rest)).some
      · split
        next hmodule =>
          have hat : n.scopeAt module = scope := by rw [scopeAt, hscope]; rfl
          have hmem : first.name ∈ (n.scopeAt module).modules := by
            rw [hat]
            exact List.contains_iff_mem.mp hmodule
          exact (below_adds h hn (hn.into module first.name hmem) rest).some
        · split
          · exact .one (inModule_concat module (first :: rest) s)
          · exact (throughGlobs_adds h module (List.cons_ne_nil first rest)).orNone

end Rules

/-- **The lookup of a route with one more step** finds what that of the route finds, with the step,
unless that is a module. -/
theorem lookup_adds (hn : n.Nested) (s : Step) (depth : Nat) : (n.lookup depth).Adds n s := by
  induction depth with
  | zero =>
      refine ⟨fun module route owner skip _ hroute => ?_, fun module route hroute => ?_⟩
      · obtain ⟨first, rest, rfl⟩ := List.exists_cons_of_ne_nil hroute
        exact .singleton (inModule_concat module (first :: rest) s)
      · obtain ⟨first, rest, rfl⟩ := List.exists_cons_of_ne_nil hroute
        exact .one (inModule_concat module (first :: rest) s)
  | succ depth ih =>
      refine ⟨fun module route owner skip hscope hroute => ?_, fun module route hroute => ?_⟩
      · rw [lookup_written]
        exact writtenRule_adds hn ih owner skip hscope hroute
      · rw [lookup_member]
        exact memberRule_adds hn ih module hroute

/-- **The candidates of a path that goes on behind the path of a type** are those of the type, each
with one name more. -/
theorem candidates_concat (hn : n.Nested) {module : List String} {route : Route}
    (owner : Option TypeName) (hscope : (n.scope? module).isSome = true) (hroute : route ≠ [])
    (hnone : ∀ r ∈ n.candidates module route owner, n.module? r = none) (s : Step) :
    Added s (n.candidates module route owner) (n.candidates module (route ++ [s]) owner) :=
  ((lookup_adds hn s lookupBudget).written module route owner none hscope hroute lookupBudget
    hnone).2

end Names

end CapabilityGate
