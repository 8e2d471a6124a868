import CapabilityGate.Resolution.Model
import CapabilityGate.Proofs.Program.RearrangedWalk
import CapabilityGate.Proofs.Resolution.Scopes

/-!
# Names that look up alike

Name resolution asks a scope four things only: which import a name has, which globs there are in
which order, and whether a name is that of an item or a module. So programs whose scopes give the
same answers resolve everything alike, whatever the order in which the scopes were filled.

## Main definitions

* `Scope.Alike`, `Names.Alike`: scopes, and names of programs, that give the same answers.

## Main results

* `Names.Alike.lookup_eq`: alike names look up alike.
* `Names.Alike.typeMeaning_eq`, `Names.Alike.candidatesAt_eq`: rearranged types and paths mean
  the same by alike names.
-/

namespace CapabilityGate

open Program

/-- Two scopes are **alike** when they give the same answers. -/
structure Scope.Alike (s t : Scope) : Prop where
  /-- A name is imported from the same target. -/
  imports : ∀ name, s.import? name = t.import? name
  /-- The globs are the same, in the same order. -/
  globs : s.globs = t.globs
  /-- The same names are those of items. -/
  items : ∀ name, s.items.contains name = t.items.contains name
  /-- The same names are those of modules. -/
  modules : ∀ name, s.modules.contains name = t.modules.contains name

/-- The names of two programs are **alike** when the same modules have scopes, and these are
alike. -/
structure Names.Alike (n o : Names) : Prop where
  /-- The same modules have scopes. -/
  isThere : ∀ module, (n.scope? module).isSome = (o.scope? module).isSome
  /-- The scopes of a module are alike. -/
  scopeAt : ∀ module, (n.scopeAt module).Alike (o.scopeAt module)

namespace Names

/-- The names of a program are alike to themselves. -/
theorem Alike.refl (n : Names) : n.Alike n :=
  ⟨fun _ => rfl, fun _ => ⟨fun _ => rfl, rfl, fun _ => rfl, fun _ => rfl⟩⟩

variable {n o : Names} (h : n.Alike o)

include h

/-! ### Looking up -/

/-- A module has scopes that are alike, or none. -/
theorem Alike.scope_cases (module : List String) :
    (n.scope? module = none ∧ o.scope? module = none) ∨
      ∃ s t, n.scope? module = some s ∧ o.scope? module = some t ∧ s.Alike t := by
  have hthere := h.isThere module
  have halike := h.scopeAt module
  cases hn : n.scope? module with
  | none =>
      cases ho : o.scope? module with
      | none => exact Or.inl ⟨rfl, rfl⟩
      | some t => simp [hn, ho] at hthere
  | some s =>
      cases ho : o.scope? module with
      | none => simp [hn, ho] at hthere
      | some t =>
          rw [Names.scopeAt, Names.scopeAt, hn, ho] at halike
          exact Or.inr ⟨s, t, rfl, rfl, halike⟩

/-- By alike names a route names **the same module**. -/
theorem Alike.module?_eq (route : Route) : n.module? route = o.module? route := by
  cases route with
  | nil => rfl
  | cons root rest => rw [module?, module?, h.isThere]

/-- The globs of a module give the same, **in the same order**. -/
theorem Alike.throughGlobs_eq (l : Lookup) (module : List String) (route : Route) :
    n.throughGlobs l module route = o.throughGlobs l module route := by
  have hglob : n.throughGlob l route = o.throughGlob l route := by
    funext above
    rw [throughGlob, throughGlob, h.module?_eq]
  rw [throughGlobs, throughGlobs]
  rcases h.scope_cases module with ⟨hn, ho⟩ | ⟨s, t, hn, ho, hst⟩
  · rw [hn, ho]
  · simp only [hn, ho, hglob, hst.globs]

/-- So does a name that its module does not declare. -/
theorem Alike.undeclared_eq (l : Lookup) (module : List String) (first : Step) (rest : Route) :
    n.undeclared l module first rest = o.undeclared l module first rest := by
  rw [undeclared, undeclared, h.throughGlobs_eq]

/-- So does any name, since it has **the same import** or none. -/
theorem Alike.byName_eq (l : Lookup) (module : List String) (first : Step) (rest : Route)
    (skip : Option String) :
    n.byName l module first rest skip = o.byName l module first rest skip := by
  have hscope := h.scopeAt module
  rw [Names.scopeAt, Names.scopeAt] at hscope
  rw [byName, byName, h.undeclared_eq, hscope.imports, hscope.modules, hscope.items]

/-- Written routes follow **the same rule**. -/
theorem Alike.writtenRule_eq (l : Lookup) (module : List String) (route : Route)
    (owner : Option TypeName) (skip : Option String) :
    n.writtenRule l module route owner skip = o.writtenRule l module route owner skip := by
  cases route with
  | nil => rfl
  | cons first rest => simp only [writtenRule, h.byName_eq]

/-- So do routes below a module. -/
theorem Alike.memberRule_eq (l : Lookup) (module : List String) (route : Route) :
    n.memberRule l module route = o.memberRule l module route := by
  cases route with
  | nil => rfl
  | cons first rest =>
      rw [memberRule, memberRule]
      rcases h.scope_cases module with ⟨hn, ho⟩ | ⟨s, t, hn, ho, hst⟩
      · rw [hn, ho]
      · simp only [hn, ho, hst.imports, hst.modules, hst.items, h.throughGlobs_eq]

/-- Alike names **look up alike**, at every depth. -/
theorem Alike.lookup_eq (depth : Nat) : n.lookup depth = o.lookup depth := by
  induction depth with
  | zero => rfl
  | succ depth ih =>
      rw [lookup, lookup, ih]
      simp only [h.writtenRule_eq, h.memberRule_eq]

/-- By alike names a route has **the same candidates**. -/
theorem Alike.candidates_eq (module : List String) (route : Route) (owner : Option TypeName) :
    n.candidates module route owner = o.candidates module route owner := by
  rw [candidates, candidates, candidatesWithin, candidatesWithin, h.lookup_eq]

/-- The same names are **known** in a module. -/
theorem Alike.knows_eq (module : List String) (name : String) :
    n.knows module name = o.knows module name := by
  rw [knows, knows]
  rcases h.scope_cases module with ⟨hn, ho⟩ | ⟨s, t, hn, ho, hst⟩
  · rw [hn, ho]
  · simp only [hn, ho, Option.any_some, Scope.declares, hst.imports, hst.items, hst.modules]

/-- The same routes are **missing**, from any module on. -/
theorem Alike.isMissing_eq (module rest : List String) :
    n.isMissing module rest = o.isMissing module rest := by
  induction rest generalizing module with
  | nil => rfl
  | cons name rest ih =>
      rw [isMissing, isMissing]
      rcases h.scope_cases module with ⟨hn, ho⟩ | ⟨s, t, hn, ho, hst⟩
      · rw [hn, ho]
      · simp only [hn, ho, hst.items, hst.modules, ih]

end Names

/-! ### What rearranged types and paths mean -/

namespace Names

/-- Items among the arguments of a path are passed over. -/
theorem argumentsOf_filter (n : Names) (module : List String) (owner : Option TypeName)
    (parts : List Part) :
    n.argumentsOf module owner (parts.filter (!·.isItem)) = n.argumentsOf module owner parts := by
  induction parts with
  | nil => rfl
  | cons part rest ih =>
      cases part with
      | type t => exact congrArg (n.typeMeaning module owner t :: ·) ih
      | _ => exact ih

section Rearranged

variable {n o : Names}

mutual

/-- By alike names **a rearranged type means the same**. -/
theorem Alike.typeMeaning_eq (h : n.Alike o) (module : List String) (owner : Option TypeName) :
    ∀ {s t : Ty}, s.Rearranged t → n.typeMeaning module owner s = o.typeMeaning module owner t
  | _, _, .path (.mk hpath) => by
    rw [typeMeaning, typeMeaning, h.stepsOf_eq module owner hpath, h.candidates_eq]
  | _, _, .wrapped hinner => by
    rw [typeMeaning, typeMeaning]
    exact h.typeMeaning_eq module owner hinner
  | _, _, .other _ => by
    rw [typeMeaning, typeMeaning]

/-- Rearranged segments are the same steps. -/
theorem Alike.stepsOf_eq (h : n.Alike o) (module : List String) (owner : Option TypeName) :
    ∀ {ss ts : List Segment}, SegmentsRearranged ss ts →
      n.stepsOf module owner ss = o.stepsOf module owner ts
  | _, _, .nil => rfl
  | _, _, .cons hargs hrest => by
    rw [stepsOf, stepsOf, h.argumentsOf_eq module owner hargs, h.stepsOf_eq module owner hrest]

/-- Rearranged arguments are the same types, **wherever items stand among them**. -/
theorem Alike.argumentsOf_eq (h : n.Alike o) (module : List String) (owner : Option TypeName) :
    ∀ {as bs : List Part}, PartsRearranged as bs →
      n.argumentsOf module owner as = o.argumentsOf module owner bs
  | _, bs, .mk hplace hmoved => by
    -- the arguments that are no items keep their order, and only they count
    rw [h.argumentsOf_eq_inPlace module owner hplace, ← argumentsOf_filter, hmoved.others,
      argumentsOf_filter]

/-- They are so where they are rearranged one by one. -/
theorem Alike.argumentsOf_eq_inPlace (h : n.Alike o) (module : List String)
    (owner : Option TypeName) : ∀ {as bs : List Part}, PartsInPlace as bs →
      n.argumentsOf module owner as = o.argumentsOf module owner bs
  | _, _, .nil => rfl
  | _, _, .cons hpart hrest => by
    have hrest := h.argumentsOf_eq_inPlace module owner hrest
    cases hpart with
    | type htype => rw [argumentsOf, argumentsOf, h.typeMeaning_eq module owner htype, hrest]
    | _ => exact hrest

end

variable (h : n.Alike o) {a b : Place} (hplace : a.Rearranged b)

include h hplace

/-- A place has **the same owner** in a rearranged program. -/
theorem Alike.ownerAt_eq : n.ownerAt a = o.ownerAt b := by
  cases hplace with
  | free => rw [ownerAt, ownerAt, Option.map_none, Option.map_none]
  | owned howner =>
      simp only [ownerAt, Option.map_some, h.typeMeaning_eq _ none howner]

/-- A type means the same **at places that correspond**. -/
theorem Alike.typeMeaningAt_eq {s t : Ty} (htype : s.Rearranged t) :
    n.typeMeaning a.module (n.ownerAt a) s = o.typeMeaning b.module (o.ownerAt b) t := by
  rw [hplace.module_eq, h.ownerAt_eq hplace]
  exact h.typeMeaning_eq _ _ htype

/-- There a route has the same candidates. -/
theorem Alike.candidatesAt_eq (route : Route) :
    n.candidatesAt a route = o.candidatesAt b route := by
  rw [candidatesAt, candidatesAt, hplace.module_eq, h.ownerAt_eq hplace, h.candidates_eq]

/-- There a path is the same route. -/
theorem Alike.routeAt_eq {p q : Path} (hpath : p.Rearranged q) :
    n.routeAt a p = o.routeAt b q := by
  cases hpath with
  | mk hsegments =>
      rw [routeAt, routeAt, routeOf, routeOf, hplace.module_eq, h.ownerAt_eq hplace]
      exact h.stepsOf_eq _ _ hsegments

/-- There a path has **the same first candidate**. -/
theorem Alike.firstOf_eq {p q : Path} (hpath : p.Rearranged q) :
    n.firstOf a p = o.firstOf b q := by
  rw [firstOf, firstOf, h.routeAt_eq hplace hpath, h.candidatesAt_eq hplace]

end Rearranged

end Names

end CapabilityGate
