import Mathlib.Data.List.Forall2
import CapabilityGate.Proofs.Resolution.LostRoutes

/-!
# Lookups that run out of budget

A lookup that runs out of its budget finds what it finds with every larger one, or a route that is
lost: what is made of a lost route is lost too, and as long as nothing is lost, a lookup with less
to pay with does the same as one with more, and never has more left.

## Main definitions

* `Paid.FailsClosed`: a computation finds what another one finds that has more to pay with, or
  something that is lost.

## Main results

* `Names.lookup_failsClosed`: lookups fail closed.
* `Names.candidates_failsClosed`: so do the candidates of a route.
-/

namespace CapabilityGate

open Program Route

/-! ### Computations that fail closed -/

section FailsClosed

variable {α β γ δ ε ζ : Type}

/-- A computation **fails closed** beside another one that is given as much to pay with, or more:
what it finds is `lost`, or else both find the same by a `key` and it leaves no more than the other
one. Neither leaves more than it is given. -/
def Paid.FailsClosed (lost : α → Prop) (key : α → β) (most deep : Nat) (c d : Paid α) : Prop :=
  ∀ left ≤ most, ∀ more ≤ deep, left ≤ more →
    (c left).2 ≤ left ∧ (d more).2 ≤ more ∧
      (lost (c left).1 ∨ key (c left).1 = key (d more).1 ∧ (c left).2 ≤ (d more).2)

namespace Paid.FailsClosed

variable {lost : α → Prop} {key : α → β} {lost' : γ → Prop} {key' : γ → δ} {most deep : Nat}

/-- Values fail closed if the first one is lost, **or they have the same key**. -/
theorem pure {a b : α} (h : lost a ∨ key a = key b) :
    Paid.FailsClosed lost key most deep (Pure.pure a) (Pure.pure b) :=
  fun left _ more _ hle => ⟨Nat.le_refl left, Nat.le_refl more, h.imp id fun hkey => ⟨hkey, hle⟩⟩

/-- Computations one after another fail closed, if what is **made of lost results is lost**. -/
theorem bind {c d : Paid α} {f g : α → Paid γ} (h : Paid.FailsClosed lost key most deep c d)
    (hlost : ∀ a, lost a → ∀ left, lost' (f a left).1)
    (hsame : ∀ a b, key a = key b → Paid.FailsClosed lost' key' most deep (f a) (g b)) :
    Paid.FailsClosed lost' key' most deep (c >>= f) (d >>= g) := by
  intro left hleft more hmore hle
  obtain ⟨hc, hd, hfound⟩ := h left hleft more hmore hle
  have hbind : (c >>= f) left = f (c left).1 (c left).2 := rfl
  have hbind' : (d >>= g) more = g (d more).1 (d more).2 := rfl
  rw [hbind, hbind']
  have hshrinks := (hsame (c left).1 (c left).1 rfl (c left).2 (Nat.le_trans hc hleft) more hmore
    (Nat.le_trans hc hle)).1
  have hshrinks' := (hsame (d more).1 (d more).1 rfl 0 (Nat.zero_le most) (d more).2
    (Nat.le_trans hd hmore) (Nat.zero_le _)).2.1
  refine ⟨Nat.le_trans hshrinks hc, Nat.le_trans hshrinks' hd, ?_⟩
  rcases hfound with hfound | ⟨hkey, hless⟩
  · exact Or.inl (hlost _ hfound _)
  · exact (hsame _ _ hkey _ (Nat.le_trans hc hleft) _ (Nat.le_trans hd hmore) hless).2.2

/-- What is made of the results of such computations. -/
theorem map {c d : Paid α} {f g : α → γ} (h : Paid.FailsClosed lost key most deep c d)
    (hlost : ∀ a, lost a → lost' (f a)) (hsame : ∀ a b, key a = key b → key' (f a) = key' (g b)) :
    Paid.FailsClosed lost' key' most deep (do return f (← c)) (do return g (← d)) :=
  h.bind (fun a ha _ => hlost a ha) fun a b hab => .pure (Or.inr (hsame a b hab))

/-- Computations for each member of a list fail closed **one by one**. -/
theorem mapM {R : ε → ζ → Prop} {f : ε → Paid α} {g : ζ → Paid α}
    (h : ∀ x y, R x y → Paid.FailsClosed lost key most deep (f x) (g y)) {xs : List ε}
    {ys : List ζ} (hxs : List.Forall₂ R xs ys) :
    Paid.FailsClosed (fun as => ∃ a ∈ as, lost a) (List.map key) most deep (xs.mapM f)
      (ys.mapM g) := by
  induction hxs with
  | nil =>
      rw [List.mapM_nil, List.mapM_nil]
      exact .pure (Or.inr rfl)
  | cons hxy _ ih =>
      rw [List.mapM_cons, List.mapM_cons]
      refine (h _ _ hxy).bind (fun a ha left => ⟨a, List.mem_cons_self .., ha⟩) fun a b hab => ?_
      refine ih.map (fun as ⟨x, hx, hlost⟩ => ⟨x, List.mem_cons_of_mem _ hx, hlost⟩) ?_
      intro as bs hsame
      rw [List.map_cons, List.map_cons, hab, hsame]

end Paid.FailsClosed

/-- What is computed for a list of members one of which is lost is **lost**, whatever the others
are. -/
theorem Paid.lost_mapM {lost : α → Prop} {f : ε → Paid α} {x : ε} {xs : List ε} (hx : x ∈ xs)
    (hlost : ∀ left, lost (f x left).1) (left : Nat) : ∃ a ∈ (xs.mapM f left).1, lost a := by
  induction xs generalizing left with
  | nil => exact absurd hx List.not_mem_nil
  | cons y rest ih =>
      have hboth : ((y :: rest).mapM f left).1 =
          (f y left).1 :: (rest.mapM f (f y left).2).1 := by
        rw [List.mapM_cons]
        rfl
      rw [hboth]
      rcases List.mem_cons.mp hx with rfl | hx
      · exact ⟨_, List.mem_cons_self .., hlost left⟩
      · obtain ⟨a, ha, halost⟩ := ih hx (f y left).2
        exact ⟨a, List.mem_cons_of_mem _ ha, halost⟩

end FailsClosed

namespace Names

/-- One of several routes is **lost**. -/
def SomeLost (n : Names) (rs : List Route) : Prop :=
  ∃ r ∈ rs, n.Lost r

/-- One of several routes is lost, if there are any. -/
def SomeLostBelow (n : Names) (found : Option (List Route)) : Prop :=
  ∃ rs, found = some rs ∧ n.SomeLost rs

end Names

/-- A lookup **fails closed** beside another one for routes in parts. -/
structure Lookup.FailsClosed (n : Names) (most deep : Nat) (l m : Lookup) : Prop where
  /-- Routes that are written in a module with a scope. -/
  written : ∀ {module : List String} {route : Route}, (n.scope? module).isSome = true →
    route.InParts → ∀ owner skip, Paid.FailsClosed n.SomeLost Names.namesOf most deep
      (l.written module route owner skip) (m.written module route owner skip)
  /-- Routes below a module with a scope. -/
  member : ∀ {module : List String} {route : Route}, (n.scope? module).isSome = true →
    route.InParts → Paid.FailsClosed n.SomeLostBelow (Option.map Names.namesOf) most deep
      (l.member module route) (m.member module route)
  /-- Routes below a module without a scope, which are taken as they are. -/
  beside : ∀ {module : List String} {route : Route}, n.scope? module = none → route ≠ [] →
    Paid.FailsClosed (fun _ => False)
      (fun found => Names.namesOf (found.getD [inModule module route])) most deep
      (l.member module route) (m.member module route)

namespace Names

variable {n : Names} {l m : Lookup} {most deep : Nat}

/-- What is left of a route in parts behind `super` is **in parts**. -/
theorem ascend_inParts {route : Route} (h : route.InParts) (module : List String) :
    (ascend module route).2.InParts := by
  induction route generalizing module with
  | nil => exact h
  | cons first rest ih =>
      rw [ascend]
      split
      · exact ih (fun step hstep => h step (List.mem_cons_of_mem _ hstep)) _
      · exact h

/-- Routes with the same names in place of the first step have **the same names**. -/
theorem namesOf_substitute {rs qs : List Route} (h : namesOf rs = namesOf qs) (route : Route) :
    namesOf (rs.map fun r => substitute r route) = namesOf (qs.map fun r => substitute r route) := by
  have hone : ∀ r : Route, (substitute r route).map Step.name =
      r.map Step.name ++ (route.drop 1).map Step.name := by
    intro r
    cases route with
    | nil => simp [Route.substitute]
    | cons first rest =>
        rw [Route.substitute, List.map_append]
        split
        · rfl
        · rw [map_name_withArgs]
          rfl
  have hall : ∀ rs : List Route, namesOf (rs.map fun r => substitute r route) =
      (namesOf rs).map fun names => names ++ (route.drop 1).map Step.name := by
    intro rs
    simp only [namesOf, List.map_map]
    exact List.map_congr_left fun r _ => hone r
  rw [hall, hall, h]

/-- A module that imports something **has a scope**. -/
theorem isSome_scope?_of_import {module : List String} {name : String} {target : Route}
    (h : (n.scopeAt module).import? name = some target) : (n.scope? module).isSome = true := by
  rw [scopeAt] at h
  cases hscope : n.scope? module with
  | none =>
      rw [hscope] at h
      exact absurd h (Option.some_ne_none target).symm
  | some s => rfl

/-- Which module a route names shows **in its names**. -/
theorem module?_congr {r q : Route} (h : r.map Step.name = q.map Step.name) :
    n.module? r = n.module? q := by
  cases r with
  | nil =>
      obtain rfl := List.map_eq_nil_iff.mp h.symm
      rfl
  | cons root rest =>
      obtain ⟨root', rest', rfl, hroot, hrest⟩ := List.map_eq_cons_iff.mp h.symm
      rw [module?, module?, hroot, hrest]

section Rules

variable (hn : n.Orderly) (h : Lookup.FailsClosed n most deep l m)

include h

/-- Below a module lookups fail closed **as those that they ask do**. -/
theorem below_failsClosed (module : List String) {route : Route} (hparts : route.InParts) :
    Paid.FailsClosed n.SomeLost namesOf most deep (below l module route) (below m module route) := by
  have hrest := ascend_inParts hparts module
  rw [below, below]
  generalize ascend module route = up at hrest
  obtain ⟨module, rest⟩ := up
  dsimp only
  split
  · exact .pure (Or.inr rfl)
  next hne =>
    have hne' : rest ≠ [] := fun hnil => hne (List.isEmpty_iff.mpr hnil)
    cases hscope : n.scope? module with
    | none => exact (h.beside hscope hne').map (fun _ hlost => hlost.elim) fun _ _ hsame => hsame
    | some s =>
        refine (h.member (by rw [hscope]; rfl) hrest).map ?_ ?_
        · rintro _ ⟨rs, rfl, hlost⟩
          exact hlost
        · intro a b hsame
          cases a <;> cases b <;> simp_all

/-- So they do through an import **of a module with a scope**. -/
theorem throughImport_failsClosed {module : List String} (hscope : (n.scope? module).isSome = true)
    (name : String) {target route : Route} (htarget : target.InParts) (hparts : route.InParts) :
    Paid.FailsClosed n.SomeLost namesOf most deep (throughImport l module name target route)
      (throughImport m module name target route) := by
  refine (h.written hscope htarget none (some name)).map ?_ ?_
  · rintro rs ⟨r, hr, hlost⟩
    exact ⟨_, List.mem_map_of_mem hr, hlost.substitute hparts⟩
  · exact fun rs qs hsame => namesOf_substitute hsame route

/-- So they do through a glob, if its target is found **with the same names**. -/
theorem throughGlob_failsClosed {route : Route} (hparts : route.InParts) {above above' : Route}
    (hsame : above.map Step.name = above'.map Step.name) :
    Paid.FailsClosed n.SomeLost namesOf most deep (n.throughGlob l route above)
      (n.throughGlob m route above') := by
  rw [throughGlob, throughGlob, module?_congr hsame]
  split
  next module hmodule =>
    have hscope : (n.scope? module).isSome = true := by
      cases above' with
      | nil => exact absurd hmodule (Option.some_ne_none _).symm
      | cons root rest =>
          rw [module?] at hmodule
          split at hmodule
          next hfound =>
            obtain rfl := Option.some.inj hmodule
            exact (Bool.and_eq_true_iff.mp hfound).2
          next => exact absurd hmodule (Option.some_ne_none _).symm
    refine (h.member hscope hparts).map ?_ ?_
    · rintro _ ⟨rs, rfl, hlost⟩
      exact hlost
    · intro a b hsame
      cases a <;> cases b <;> simp_all
  next =>
    refine .pure (Or.inr ?_)
    simp [namesOf, hsame]

omit h in
/-- What a lost glob leads to is **lost**. -/
theorem someLost_throughGlob (hn : n.Orderly) (l : Lookup) {route above : Route}
    (hparts : route.InParts) (hlost : n.Lost above) (left : Nat) :
    n.SomeLost (n.throughGlob l route above left).1 := by
  rw [throughGlob, hlost.module?_eq_none hn]
  exact ⟨_, List.mem_singleton.mpr rfl, hlost.append hparts⟩

include hn

/-- Lookups fail closed through **all globs** of a module. -/
theorem throughGlobs_failsClosed (module : List String) {route : Route} (hparts : route.InParts) :
    Paid.FailsClosed n.SomeLost namesOf most deep (n.throughGlobs l module route)
      (n.throughGlobs m module route) := by
  have hflatten : ∀ rss : List (List Route), (∃ rs ∈ rss, n.SomeLost rs) →
      n.SomeLost rss.flatten := by
    rintro rss ⟨rs, hrs, r, hr, hlost⟩
    exact ⟨r, List.mem_flatten.mpr ⟨rs, hrs, hr⟩, hlost⟩
  have hsame : ∀ rss qss : List (List Route), rss.map namesOf = qss.map namesOf →
      namesOf rss.flatten = namesOf qss.flatten := by
    intro rss qss h
    have hall : ∀ rss : List (List Route), namesOf rss.flatten = (rss.map namesOf).flatten := by
      intro rss
      rw [namesOf, List.map_flatten]
      rfl
    rw [hall, hall, h]
  rw [throughGlobs, throughGlobs]
  split
  next => exact .pure (Or.inr rfl)
  next s hscope =>
    have hsome : (n.scope? module).isSome = true := by rw [hscope]; rfl
    have hat : n.scopeAt module = s := by rw [scopeAt, hscope]; rfl
    have hglobs : List.Forall₂ (fun glob other => glob = other ∧ Route.InParts glob) s.globs
        s.globs := by
      refine List.forall₂_same.mpr fun glob hglob => ⟨rfl, ?_⟩
      exact (hn.scope module).glob glob (hat ▸ hglob)
    refine (Paid.FailsClosed.mapM (fun glob other hglob => ?_) hglobs).map hflatten hsame
    obtain ⟨rfl, hglob⟩ := hglob
    refine (h.written hsome hglob none none).bind ?_ fun aboves aboves' haboves => ?_
    · rintro aboves ⟨above, habove, hlost⟩ left
      exact hflatten _ (Paid.lost_mapM habove (someLost_throughGlob hn l hparts hlost) left)
    · have hpairs : List.Forall₂
          (fun above above' : Route => above.map Step.name = above'.map Step.name)
          aboves aboves' := by
        have hequal : List.Forall₂ Eq (namesOf aboves) (namesOf aboves') :=
          haboves ▸ List.forall₂_refl _
        rwa [namesOf, namesOf, List.forall₂_map_left_iff, List.forall₂_map_right_iff] at hequal
      exact (Paid.FailsClosed.mapM (fun above above' habove =>
        throughGlob_failsClosed h hparts habove) hpairs).map hflatten hsame

/-- So they do where a name is not declared. -/
theorem undeclared_failsClosed (module : List String) {first : Step} {rest : Route}
    (hparts : Route.InParts (first :: rest)) :
    Paid.FailsClosed n.SomeLost namesOf most deep (n.undeclared l module first rest)
      (n.undeclared m module first rest) := by
  have hordered : ∀ {c d : Paid (List Route)},
      Paid.FailsClosed n.SomeLost namesOf most deep c d →
        Paid.FailsClosed n.SomeLost namesOf most deep
          (c >>= fun found =>
            if !rest.isEmpty && startsLower first.name then
              pure (literal (first :: rest) :: found)
            else pure (found ++ [literal (first :: rest)]))
          (d >>= fun found =>
            if !rest.isEmpty && startsLower first.name then
              pure (literal (first :: rest) :: found)
            else pure (found ++ [literal (first :: rest)])) := by
    intro c d hcd
    split
    · refine hcd.map (fun rs ⟨r, hr, hlost⟩ => ⟨r, List.mem_cons_of_mem _ hr, hlost⟩) ?_
      intro rs qs hsame
      exact congrArg (List.cons _) hsame
    · refine hcd.map (fun rs ⟨r, hr, hlost⟩ => ⟨r, List.mem_append_left _ hr, hlost⟩) ?_
      intro rs qs hsame
      rw [namesOf, namesOf, List.map_append, List.map_append]
      exact congrArg (· ++ _) hsame
  rw [undeclared, undeclared]
  split
  · exact hordered (.pure (Or.inr rfl))
  · exact hordered (throughGlobs_failsClosed hn h module hparts)

/-- So they do by a name. -/
theorem byName_failsClosed (module : List String) {first : Step} {rest : Route}
    (hparts : Route.InParts (first :: rest)) (skip : Option String) :
    Paid.FailsClosed n.SomeLost namesOf most deep (n.byName l module first rest skip)
      (n.byName m module first rest skip) := by
  have hrest : Route.InParts rest := fun step hstep => hparts step (List.mem_cons_of_mem _ hstep)
  rw [byName, byName]
  split
  next target hfound =>
    have himport : (n.scopeAt module).import? first.name = some target := by
      split at hfound
      · exact absurd hfound (Option.some_ne_none target).symm
      · exact hfound
    exact throughImport_failsClosed h (isSome_scope?_of_import himport) first.name
      ((hn.scope module).import_ _ _ himport).2.2 hparts
  next =>
    split
    · exact below_failsClosed h _ hrest
    · split
      · exact .pure (Or.inr rfl)
      · split
        · exact .pure (Or.inr rfl)
        · exact undeclared_failsClosed hn h module hparts

/-- So they do for a written route **that is paid for**. -/
theorem writtenPaid_failsClosed (module : List String) {first : Step} {rest : Route}
    (hparts : Route.InParts (first :: rest)) (owner : Option TypeName) (skip : Option String) :
    Paid.FailsClosed n.SomeLost namesOf most deep (n.writtenPaid l module first rest owner skip)
      (n.writtenPaid m module first rest owner skip) := by
  have hrest : Route.InParts rest := fun step hstep => hparts step (List.mem_cons_of_mem _ hstep)
  rw [writtenPaid, writtenPaid]
  split
  · exact below_failsClosed h _ hrest
  · split
    · exact below_failsClosed h _ hrest
    · split
      · exact below_failsClosed h _ hrest
      · split
        · exact .pure (Or.inr rfl)
        · exact byName_failsClosed hn h module hparts skip

/-- So they do for a route below a module that is paid for. -/
theorem memberPaid_failsClosed (module : List String) {first : Step} {rest : Route}
    (hparts : Route.InParts (first :: rest)) :
    Paid.FailsClosed n.SomeLostBelow (Option.map namesOf) most deep
      (n.memberPaid l module first rest) (n.memberPaid m module first rest) := by
  have hrest : Route.InParts rest := fun step hstep => hparts step (List.mem_cons_of_mem _ hstep)
  rw [memberPaid, memberPaid]
  split
  next target himport =>
    exact (throughImport_failsClosed h (isSome_scope?_of_import himport) first.name
      ((hn.scope module).import_ _ _ himport).2.2 hparts).map
        (fun rs hlost => ⟨rs, rfl, hlost⟩) fun _ _ => congrArg some
  next =>
    split
    · exact (below_failsClosed h _ hrest).map (fun rs hlost => ⟨rs, rfl, hlost⟩)
        fun _ _ => congrArg some
    · split
      · exact .pure (Or.inr rfl)
      · refine (throughGlobs_failsClosed hn h module hparts).map ?_ ?_
        · rintro rs ⟨r, hr, hlost⟩
          have hne : rs.isEmpty = false := List.isEmpty_eq_false_iff.mpr (List.ne_nil_of_mem hr)
          rw [hne]
          exact ⟨rs, rfl, r, hr, hlost⟩
        · intro rs qs hsame
          have hempty : rs.isEmpty = qs.isEmpty := by
            have hlength := congrArg List.isEmpty hsame
            rwa [namesOf, namesOf, List.isEmpty_map, List.isEmpty_map] at hlength
          rw [hempty]
          split
          · rfl
          · exact congrArg some hsame

end Rules

/-- A lookup below a module without a scope finds **nothing but the route itself**, and pays for
itself only. -/
theorem member_beside {depth left : Nat} (hleft : left ≤ depth) {module : List String}
    {route : Route} (hscope : n.scope? module = none) (hroute : route ≠ []) :
    ((n.lookup depth).member module route left).1.getD [inModule module route] =
        [inModule module route] ∧
      ((n.lookup depth).member module route left).2 = left - 1 := by
  obtain ⟨first, rest, rfl⟩ := List.exists_cons_of_ne_nil hroute
  cases left with
  | zero =>
      rw [member_cut]
      exact ⟨rfl, rfl⟩
  | succ left =>
      obtain ⟨depth, rfl⟩ : ∃ d, depth = d + 1 := ⟨depth - 1, by omega⟩
      have hat : n.scopeAt module = .empty := by rw [scopeAt, hscope]; rfl
      have hglobs : n.throughGlobs (n.lookup depth) module (first :: rest) = pure [] := by
        rw [throughGlobs, hscope]
      rw [lookup_member, memberRule_succ, memberPaid, hat, hglobs]
      exact ⟨rfl, rfl⟩

/-- A lookup with nothing to pay with **fails closed** beside every other one. -/
theorem written_spent (hn : n.Orderly) {depth deeper more : Nat} (hmore : more ≤ deeper)
    {module : List String} {route : Route} (hscope : (n.scope? module).isSome = true)
    (hparts : route.InParts) (owner : Option TypeName) (skip : Option String) :
    ((n.lookup depth).written module route owner skip 0).2 ≤ 0 ∧
      ((n.lookup deeper).written module route owner skip more).2 ≤ more ∧
      (n.SomeLost ((n.lookup depth).written module route owner skip 0).1 ∨
        namesOf ((n.lookup depth).written module route owner skip 0).1 =
            namesOf ((n.lookup deeper).written module route owner skip more).1 ∧
          ((n.lookup depth).written module route owner skip 0).2 ≤
            ((n.lookup deeper).written module route owner skip more).2) := by
  have hextends : Lookup.Extends deeper 0 (n.lookup deeper) (n.lookup deeper) :=
    n.lookup_extends (Nat.le_refl _) (Nat.le_refl _)
  rw [written_cut]
  refine ⟨Nat.le_refl 0, (hextends.written module route owner skip more hmore).1, ?_⟩
  cases route with
  | nil => cases deeper <;> exact Or.inr ⟨rfl, Nat.zero_le _⟩
  | cons first rest =>
      rcases written_taken hn hscope (List.cons_ne_nil first rest) hparts owner skip deeper more with
        hlost | hfound
      · exact Or.inl ⟨_, List.mem_singleton.mpr rfl, hlost⟩
      · exact Or.inr ⟨hfound.symm, Nat.zero_le _⟩

/-- So does one below a module. -/
theorem member_spent (hn : n.Orderly) {depth deeper more : Nat} (hmore : more ≤ deeper)
    {module : List String} {route : Route} (hscope : (n.scope? module).isSome = true)
    (hparts : route.InParts) :
    ((n.lookup depth).member module route 0).2 ≤ 0 ∧
      ((n.lookup deeper).member module route more).2 ≤ more ∧
      (n.SomeLostBelow ((n.lookup depth).member module route 0).1 ∨
        ((n.lookup depth).member module route 0).1.map namesOf =
            ((n.lookup deeper).member module route more).1.map namesOf ∧
          ((n.lookup depth).member module route 0).2 ≤
            ((n.lookup deeper).member module route more).2) := by
  have hextends : Lookup.Extends deeper 0 (n.lookup deeper) (n.lookup deeper) :=
    n.lookup_extends (Nat.le_refl _) (Nat.le_refl _)
  rw [member_cut]
  refine ⟨Nat.le_refl 0, (hextends.member module route more hmore).1, ?_⟩
  cases route with
  | nil => cases deeper <;> exact Or.inr ⟨rfl, Nat.zero_le _⟩
  | cons first rest =>
      rcases member_taken hn hscope (List.cons_ne_nil first rest) hparts deeper more with
        hlost | hfound
      · exact Or.inl ⟨_, rfl, _, List.mem_singleton.mpr rfl, hlost⟩
      · exact Or.inr ⟨hfound.symm, Nat.zero_le _⟩

/-- Below a module without a scope, lookups find **the same with any budget**. -/
theorem beside_failsClosed {depth deeper : Nat} (hdepth : most ≤ depth) (hdeeper : deep ≤ deeper)
    {module : List String} {route : Route} (hscope : n.scope? module = none) (hroute : route ≠ []) :
    Paid.FailsClosed (fun _ => False)
      (fun found => namesOf (found.getD [inModule module route])) most deep
      ((n.lookup depth).member module route) ((n.lookup deeper).member module route) := by
  intro left hleft more hmore hle
  obtain ⟨hfound, hspent⟩ := member_beside (Nat.le_trans hleft hdepth) hscope hroute
  obtain ⟨hfound', hspent'⟩ := member_beside (Nat.le_trans hmore hdeeper) hscope hroute
  dsimp only
  rw [hfound, hfound', hspent, hspent']
  exact ⟨Nat.sub_le _ _, Nat.sub_le _ _, Or.inr ⟨rfl, Nat.sub_le_sub_right hle 1⟩⟩

/-- **Lookups fail closed**: with less to pay with they find what they find with more, or a route
that is lost. -/
theorem lookup_failsClosed (hn : n.Orderly) {depth deeper : Nat} (hdepth : most ≤ depth)
    (hdeeper : deep ≤ deeper) :
    Lookup.FailsClosed n most deep (n.lookup depth) (n.lookup deeper) := by
  induction most generalizing deep depth deeper with
  | zero =>
      refine ⟨fun hscope hparts owner skip left hleft more hmore _ => ?_,
        fun hscope hparts left hleft more hmore _ => ?_, beside_failsClosed hdepth hdeeper⟩
      · obtain rfl := Nat.le_zero.mp hleft
        exact written_spent hn (Nat.le_trans hmore hdeeper) hscope hparts owner skip
      · obtain rfl := Nat.le_zero.mp hleft
        exact member_spent hn (Nat.le_trans hmore hdeeper) hscope hparts
  | succ most ih =>
      -- with anything to pay with, both pay for this lookup and may go one less deep from there
      have hpaid : ∀ {left more : Nat}, left + 1 ≤ most + 1 → more ≤ deep → left + 1 ≤ more →
          ∃ k k' d m, depth = k + 1 ∧ deeper = k' + 1 ∧ more = m + 1 ∧ m ≤ d ∧ left ≤ m ∧
            Lookup.FailsClosed n most d (n.lookup k) (n.lookup k') := by
        intro left more hleft hmore hle
        exact ⟨depth - 1, deeper - 1, deep - 1, more - 1, by omega, by omega, by omega, by omega,
          by omega, ih (by omega) (by omega)⟩
      refine ⟨fun {module route} hscope hparts owner skip left hleft more hmore hle => ?_,
        fun {module route} hscope hparts left hleft more hmore hle => ?_,
        beside_failsClosed hdepth hdeeper⟩
      · cases left with
        | zero => exact written_spent hn (Nat.le_trans hmore hdeeper) hscope hparts owner skip
        | succ left =>
            obtain ⟨k, k', d, m, rfl, rfl, rfl, hm, hle', hinner⟩ := hpaid hleft hmore hle
            rw [lookup_written, lookup_written]
            cases route with
            | nil => exact ⟨Nat.le_refl _, Nat.le_refl _, Or.inr ⟨rfl, hle⟩⟩
            | cons first rest =>
                obtain ⟨hc, hd, hfound⟩ := writtenPaid_failsClosed hn hinner module hparts owner skip
                  left (Nat.le_of_succ_le_succ hleft) m hm hle'
                exact ⟨Nat.le_succ_of_le hc, Nat.le_succ_of_le hd, hfound⟩
      · cases left with
        | zero => exact member_spent hn (Nat.le_trans hmore hdeeper) hscope hparts
        | succ left =>
            obtain ⟨k, k', d, m, rfl, rfl, rfl, hm, hle', hinner⟩ := hpaid hleft hmore hle
            rw [lookup_member, lookup_member]
            cases route with
            | nil => exact ⟨Nat.le_refl _, Nat.le_refl _, Or.inr ⟨rfl, hle⟩⟩
            | cons first rest =>
                rw [memberRule_succ, memberRule_succ]
                obtain ⟨hc, hd, hfound⟩ := memberPaid_failsClosed hn hinner module hparts
                  left (Nat.le_of_succ_le_succ hleft) m hm hle'
                exact ⟨Nat.le_succ_of_le hc, Nat.le_succ_of_le hd, hfound⟩

/-- **The candidates of a route fail closed**: one of them is lost, or they have the same names as
those that are found with any larger budget. -/
theorem candidates_failsClosed (hn : n.Orderly) (module : List String) {route : Route}
    (hparts : route.InParts) (owner : Option TypeName) (extra : Nat) :
    n.SomeLost (n.candidates module route owner) ∨
      namesOf (n.candidates module route owner) =
        namesOf (n.candidatesWithin (lookupBudget + extra) module route owner).1 := by
  have hbudget : lookupBudget = 511 + 1 := rfl
  have hbudget' : lookupBudget + extra = 511 + extra + 1 := by omega
  rw [candidates, candidatesWithin, candidatesWithin, hbudget', hbudget, lookup_written,
    lookup_written]
  cases route with
  | nil => exact Or.inr rfl
  | cons first rest =>
      have hinner : Lookup.FailsClosed n 511 (511 + extra) (n.lookup 511)
          (n.lookup (511 + extra)) :=
        lookup_failsClosed hn (Nat.le_refl _) (Nat.le_refl _)
      rw [writtenRule_succ, writtenRule_succ]
      obtain ⟨-, -, hfound⟩ := writtenPaid_failsClosed hn hinner module hparts owner none 511
        (Nat.le_refl _) (511 + extra) (Nat.le_refl _) (Nat.le_add_right _ _)
      exact hfound.imp id And.left

end Names

end CapabilityGate
