import CapabilityGate.Proofs.Resolution.TypeReadings
import Mathlib.Data.List.Forall2

/-!
# The arguments at the end of a path

A lookup goes by the names of a path alone. The generic arguments that are written at its last name
are handed on with it, or are lost where the name is that of a module. So what a path means with
some arguments, it means with others too, but for the arguments.

## Main definitions

* `Route.SameNames`: routes that are the same but for the arguments of their last step.
* `Paid.Alike`: computations that yield related results and pay the same.
* `Lookup.PassesArgs`: ways of looking up that go by the names.

## Main results

* `Names.lookup_passesArgs`: lookups go by the names.
* `Names.candidates_sameNames`: so do the candidates of a path.
-/

namespace CapabilityGate

open Program Route

open List (Forall₂)

variable {as bs : List TypeName}

/-! ### Routes -/

namespace Route

/-- Routes **are the same but for the arguments** of their last step, which are `as` in the one and
`bs` in the other if they are not the same. -/
inductive SameNames (as bs : List TypeName) : Route → Route → Prop
  /-- They are the same. -/
  | same (r : Route) : SameNames as bs r r
  /-- One step with either arguments. -/
  | last (name : String) : SameNames as bs [⟨name, as⟩] [⟨name, bs⟩]
  /-- One more step in front. -/
  | cons (step : Step) {r s : Route} (h : SameNames as bs r s) :
      SameNames as bs (step :: r) (step :: s)

namespace SameNames

variable {r s : Route}

/-- Routes that are the same but for arguments are **both empty, or neither is**. -/
theorem isEmpty_eq (h : SameNames as bs r s) : r.isEmpty = s.isEmpty := by
  cases h <;> rfl

/-- They are the same but for arguments **behind the same steps**. -/
theorem append_left (h : SameNames as bs r s) (front : Route) :
    SameNames as bs (front ++ r) (front ++ s) := by
  induction front with
  | nil => exact h
  | cons step more ih => exact ih.cons step

/-- So they are below a module. -/
theorem inModule (h : SameNames as bs r s) (module : List String) :
    SameNames as bs (inModule module r) (inModule module s) :=
  h.append_left _

/-- A route with **either arguments**. -/
theorem withArgs (r : Route) : SameNames as bs (r.withArgs as) (r.withArgs bs) := by
  fun_induction Route.withArgs as r with
  | case1 => exact .same []
  | case2 step => exact .last step.name
  | case3 step rest hrest ih =>
      rw [Route.withArgs]
      · exact ih.cons step
      · exact hrest

/-- What stands in place of the first step is **the same**, but for the arguments if this is the
last one as well. -/
theorem substitute (h : SameNames as bs r s) (has : as ≠ []) (hbs : bs ≠ []) (target : Route) :
    SameNames as bs (target.substitute r) (target.substitute s) := by
  cases h with
  | same => exact .same _
  | last name =>
      rw [Route.substitute, Route.substitute, if_neg (by simpa using has),
        if_neg (by simpa using hbs), List.append_nil, List.append_nil]
      exact withArgs target
  | cons step h => exact h.append_left _

/-- Routes that are the same but for arguments are so **when they are taken as
they are written**. -/
theorem literal (h : SameNames as bs r s) :
    SameNames as bs (Names.literal r) (Names.literal s) := by
  cases h with
  | same => exact .same _
  | last name =>
      rw [Names.literal, Names.literal]
      split
      · exact .last "std"
      · exact .last name
  | cons step h =>
      rw [Names.literal, Names.literal]
      split
      · exact h.cons _
      · exact h.cons step

/-- They have **the same path**. -/
theorem path_eq (h : SameNames as bs r s) : r.path = s.path := by
  have hnames : r.map Step.name = s.map Step.name := by
    induction h with
    | same => rfl
    | last => rfl
    | cons step _ ih => rw [List.map_cons, List.map_cons, ih]
  exact congrArg joinPath hnames

/-- The last steps have **the given arguments**, if the routes are not the same. -/
theorem lastArgs (h : SameNames as bs r s) : r = s ∨ r.lastArgs = as ∧ s.lastArgs = bs := by
  induction h with
  | same r => exact .inl rfl
  | last => exact .inr ⟨rfl, rfl⟩
  | cons step h ih =>
      cases h with
      | same r => exact .inl rfl
      | last => exact .inr ⟨rfl, rfl⟩
      | cons second h => exact ih.imp (congrArg (step :: ·)) id

/-- The types have **the same path**, and the given arguments if they are not the same. -/
theorem type (h : SameNames as bs r s) :
    r.type.path = s.type.path ∧ (r.type = s.type ∨ r.type.args = as ∧ s.type.args = bs) :=
  ⟨congrArg normalPath h.path_eq, h.lastArgs.imp (congrArg Route.type) id⟩

end SameNames

end Route

/-! ### Computations -/

/-- Two computations yield **related results** and pay the same. -/
def Paid.Alike {α β : Type} (R : α → β → Prop) (c : Paid α) (d : Paid β) : Prop :=
  ∀ left, R (c left).1 (d left).1 ∧ (c left).2 = (d left).2

namespace Paid.Alike

variable {α β γ δ : Type} {R : α → β → Prop} {S : γ → δ → Prop}

/-- Values that are related **are yielded for nothing** on both sides. -/
theorem pure {a : α} {b : β} (h : R a b) : Paid.Alike R (Pure.pure a) (Pure.pure b) :=
  fun _ => ⟨h, rfl⟩

/-- A computation is like **itself**. -/
theorem refl (c : Paid α) : Paid.Alike Eq c c :=
  fun _ => ⟨rfl, rfl⟩

/-- Computations one behind the other are alike if the first ones are **and the others are
for related values**. -/
theorem bind {c : Paid α} {d : Paid β} {f : α → Paid γ} {g : β → Paid δ}
    (h : Paid.Alike R c d) (hfg : ∀ a b, R a b → Paid.Alike S (f a) (g b)) :
    Paid.Alike S (c >>= f) (d >>= g) := by
  intro left
  obtain ⟨hab, hleft⟩ := h left
  have hbind : (d >>= g) left = g (d left).1 (c left).2 := by
    rw [hleft]
    rfl
  rw [hbind]
  exact hfg _ _ hab (c left).2

/-- What follows **the same computation** is alike if it is so for each of its results. -/
theorem after (c : Paid α) {f : α → Paid γ} {g : α → Paid δ}
    (hfg : ∀ a, Paid.Alike S (f a) (g a)) : Paid.Alike S (c >>= f) (c >>= g) :=
  (refl c).bind fun a _ hab => hab ▸ hfg a

/-- Computations for each member of a list are alike **one by one**. -/
theorem mapM {f : α → Paid γ} {g : α → Paid δ} (hfg : ∀ a, Paid.Alike S (f a) (g a))
    (xs : List α) : Paid.Alike (Forall₂ S) (xs.mapM f) (xs.mapM g) := by
  induction xs with
  | nil =>
      rw [List.mapM_nil, List.mapM_nil]
      exact pure .nil
  | cons x rest ih =>
      rw [List.mapM_cons, List.mapM_cons]
      exact (hfg x).bind fun _ _ hfirst => ih.bind fun _ _ hmore => pure (.cons hfirst hmore)

end Paid.Alike

/-- Ways of looking up **go by the names**: they find the same, but for the arguments, for routes
that are the same but for these. -/
structure Lookup.PassesArgs (as bs : List TypeName) (l : Lookup) : Prop where
  /-- Routes that are written in a module. -/
  written : ∀ {r s : Route} (module : List String) (owner : Option TypeName)
    (skip : Option String), SameNames as bs r s →
      Paid.Alike (Forall₂ (SameNames as bs)) (l.written module r owner skip)
        (l.written module s owner skip)
  /-- Routes below a module. -/
  member : ∀ {r s : Route} (module : List String), SameNames as bs r s →
    Paid.Alike (Option.Rel (Forall₂ (SameNames as bs))) (l.member module r) (l.member module s)

namespace Names

variable {n : Names} {l : Lookup} {r s : Route}

/-- The list of one route. -/
theorem forall₂_singleton (h : SameNames as bs r s) : Forall₂ (SameNames as bs) [r] [s] :=
  .cons h .nil

/-- Going up some modules ends in **the same module**, with routes that are the same
but for arguments. -/
theorem ascend_sameNames (h : SameNames as bs r s) (module : List String) :
    (ascend module r).1 = (ascend module s).1 ∧
      SameNames as bs (ascend module r).2 (ascend module s).2 := by
  induction h generalizing module with
  | same r => exact ⟨rfl, .same _⟩
  | last name =>
      simp only [ascend]
      split
      · exact ⟨rfl, .same _⟩
      · exact ⟨rfl, .last name⟩
  | cons step h ih =>
      simp only [ascend]
      split
      · exact ih module.dropLast
      · exact ⟨rfl, h.cons step⟩

/-- Below a module routes with the same names **find the same**, but for arguments. -/
theorem below_sameNames (hl : l.PassesArgs as bs) (h : SameNames as bs r s)
    (module : List String) :
    Paid.Alike (Forall₂ (SameNames as bs)) (below l module r) (below l module s) := by
  obtain ⟨hup, hrest⟩ := ascend_sameNames h module
  rw [below, below]
  generalize ascend module r = x at hup hrest
  generalize ascend module s = y at hup hrest
  obtain ⟨up, r⟩ := x
  obtain ⟨_, s⟩ := y
  obtain rfl : up = _ := hup
  simp only [hrest.isEmpty_eq]
  split
  · exact .pure (forall₂_singleton (.same _))
  · refine (hl.member up hrest).bind fun found found' hfound => .pure ?_
    cases hfound with
    | none => exact forall₂_singleton (hrest.inModule up)
    | some hfound => exact hfound

section Rules

variable (has : as ≠ []) (hbs : bs ≠ []) (hl : l.PassesArgs as bs)

include has hbs in
/-- So they do through an import. -/
theorem throughImport_sameNames (h : SameNames as bs r s) (module : List String) (name : String)
    (target : Route) :
    Paid.Alike (Forall₂ (SameNames as bs)) (throughImport l module name target r)
      (throughImport l module name target s) := by
  refine .after _ fun found => .pure ?_
  rw [List.forall₂_map_left_iff, List.forall₂_map_right_iff, List.forall₂_same]
  exact fun target _ => h.substitute has hbs target

include hl in
/-- So they do through a glob. -/
theorem throughGlob_sameNames (h : SameNames as bs r s) (above : Route) :
    Paid.Alike (Forall₂ (SameNames as bs)) (n.throughGlob l r above)
      (n.throughGlob l s above) := by
  rw [throughGlob, throughGlob]
  split
  next module _ =>
    refine (hl.member module h).bind fun found found' hfound => .pure ?_
    cases hfound with
    | none => exact .nil
    | some hfound => exact hfound
  next => exact .pure (forall₂_singleton (h.append_left above))

include hl in
/-- So they do through all globs of a module. -/
theorem throughGlobs_sameNames (h : SameNames as bs r s) (module : List String) :
    Paid.Alike (Forall₂ (SameNames as bs)) (n.throughGlobs l module r)
      (n.throughGlobs l module s) := by
  rw [throughGlobs, throughGlobs]
  split
  next => exact .pure .nil
  next scope _ =>
    refine (Paid.Alike.mapM (fun glob => ?_) scope.globs).bind fun _ _ hfound =>
      .pure (List.rel_flatten hfound)
    refine .after _ fun aboves => ?_
    exact (Paid.Alike.mapM (throughGlob_sameNames hl h) aboves).bind fun _ _ hfound =>
      .pure (List.rel_flatten hfound)

include hl in
/-- So they do where their first name is not declared. -/
theorem undeclared_sameNames {first first' : Step} {rest rest' : Route}
    (h : SameNames as bs (first :: rest) (first' :: rest')) (hname : first.name = first'.name)
    (hrest : rest.isEmpty = rest'.isEmpty) (module : List String) :
    Paid.Alike (Forall₂ (SameNames as bs)) (n.undeclared l module first rest)
      (n.undeclared l module first' rest') := by
  have hend {globs globs' : List Route} (hglobs : Forall₂ (SameNames as bs) globs globs') :
      Paid.Alike (Forall₂ (SameNames as bs))
        (if (!rest'.isEmpty && startsLower first'.name) = true then
          Pure.pure (literal (first :: rest) :: globs)
        else Pure.pure (globs ++ [literal (first :: rest)]))
        (if (!rest'.isEmpty && startsLower first'.name) = true then
          Pure.pure (literal (first' :: rest') :: globs')
        else Pure.pure (globs' ++ [literal (first' :: rest')])) := by
    split
    · exact .pure (.cons h.literal hglobs)
    · exact .pure (List.rel_append hglobs (forall₂_singleton h.literal))
  rw [undeclared, undeclared, hname, hrest]
  split
  · exact hend .nil
  · exact (throughGlobs_sameNames hl h module).bind fun _ _ => hend

include has hbs hl in
/-- So they do **by their first name**. -/
theorem byName_sameNames {first first' : Step} {rest rest' : Route}
    (h : SameNames as bs (first :: rest) (first' :: rest')) (hname : first.name = first'.name)
    (hrest : SameNames as bs rest rest') (module : List String) (skip : Option String) :
    Paid.Alike (Forall₂ (SameNames as bs)) (n.byName l module first rest skip)
      (n.byName l module first' rest' skip) := by
  simp only [byName, hname]
  split
  · exact throughImport_sameNames has hbs h module _ _
  · split
    · exact below_sameNames hl hrest _
    · split
      · exact .pure (forall₂_singleton (h.inModule module))
      · split
        · exact .pure (forall₂_singleton (h.substitute has hbs _))
        · exact undeclared_sameNames hl h hname hrest.isEmpty_eq module

/-- The parts of routes that are the same but for the arguments. -/
theorem sameNames_cons {first : Step} {rest : Route} (h : SameNames as bs (first :: rest) s) :
    ∃ first' rest', s = first' :: rest' ∧ first.name = first'.name ∧
      SameNames as bs rest rest' := by
  cases h with
  | same => exact ⟨first, rest, rfl, rfl, .same rest⟩
  | last name => exact ⟨⟨name, bs⟩, [], rfl, rfl, .same []⟩
  | cons step h => exact ⟨first, _, rfl, rfl, h⟩

include has hbs hl in
/-- **The rule for written routes** goes by the names if the lookups that it asks do. -/
theorem writtenRule_sameNames (h : SameNames as bs r s) (module : List String)
    (owner : Option TypeName) (skip : Option String) :
    Paid.Alike (Forall₂ (SameNames as bs)) (n.writtenRule l module r owner skip)
      (n.writtenRule l module s owner skip) := by
  cases r with
  | nil =>
      cases h
      exact .pure .nil
  | cons first rest =>
      obtain ⟨first', rest', rfl, hname, hrest⟩ := sameNames_cons h
      rw [writtenRule, writtenRule, hname]
      refine .after _ fun paid => ?_
      split
      · exact .pure (forall₂_singleton (h.inModule module))
      · split
        · exact below_sameNames hl hrest []
        · split
          · exact below_sameNames hl hrest module
          · split
            · exact below_sameNames hl hrest module.dropLast
            · split
              · exact .pure (forall₂_singleton (h.substitute has hbs _))
              · exact byName_sameNames has hbs hl h hname hrest module skip

include has hbs hl in
/-- So does **the rule for routes below a module**. -/
theorem memberRule_sameNames (h : SameNames as bs r s) (module : List String) :
    Paid.Alike (Option.Rel (Forall₂ (SameNames as bs))) (n.memberRule l module r)
      (n.memberRule l module s) := by
  cases r with
  | nil =>
      cases h
      exact .pure .none
  | cons first rest =>
      obtain ⟨first', rest', rfl, hname, hrest⟩ := sameNames_cons h
      rw [memberRule, memberRule, hname]
      refine .after _ fun paid => ?_
      split
      · exact .pure (.some (forall₂_singleton (h.inModule module)))
      · split
        · exact .pure .none
        next scope _ =>
          split
          · exact (throughImport_sameNames has hbs h module _ _).bind fun _ _ hfound =>
              .pure (.some hfound)
          · split
            · exact (below_sameNames hl hrest _).bind fun _ _ hfound => .pure (.some hfound)
            · split
              · exact .pure (.some (forall₂_singleton (h.inModule module)))
              · refine (throughGlobs_sameNames hl h module).bind fun found found' hfound => ?_
                cases hfound with
                | nil => exact .pure .none
                | cons hfirst hmore => exact .pure (.some (.cons hfirst hmore))

end Rules

/-- **Lookups go by the names**, however deep they may go. -/
theorem lookup_passesArgs (n : Names) (has : as ≠ []) (hbs : bs ≠ []) (depth : Nat) :
    (n.lookup depth).PassesArgs as bs := by
  induction depth with
  | zero =>
      refine ⟨fun {r s} module owner skip h => .pure ?_, fun {r s} module h => .pure ?_⟩
      · rw [h.isEmpty_eq]
        split
        · exact .nil
        · exact forall₂_singleton (h.inModule module)
      · rw [h.isEmpty_eq]
        split
        · exact .none
        · exact .some (forall₂_singleton (h.inModule module))
  | succ depth ih =>
      refine ⟨fun {r s} module owner skip h => ?_, fun {r s} module h => ?_⟩
      · rw [lookup_written]
        exact writtenRule_sameNames has hbs ih h module owner skip
      · rw [lookup_member]
        exact memberRule_sameNames has hbs ih h module

/-- **The candidates of a path go by its names**: with other arguments, if it has any, it has the
same candidates one by one, but for the arguments. -/
theorem candidates_sameNames (n : Names) (module : List String) (route : Route)
    (hargs : as = [] ↔ bs = []) (owner : Option TypeName) :
    Forall₂ (SameNames as bs) (n.candidates module (route.withArgs as) owner)
      (n.candidates module (route.withArgs bs) owner) := by
  by_cases has : as = []
  · obtain rfl := has
    obtain rfl := hargs.mp rfl
    exact List.forall₂_same.mpr fun r _ => .same r
  · have hbs : bs ≠ [] := fun hbs => has (hargs.mpr hbs)
    exact ((n.lookup_passesArgs has hbs lookupBudget).written module owner none
      (.withArgs route) lookupBudget).1

end Names

end CapabilityGate
