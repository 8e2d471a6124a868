import CapabilityGate.Proofs.Resolution.Budget
import CapabilityGate.Proofs.Resolution.RespelledRoutes

/-!
# Looking up in another spelling

When the names of two programs are the same in two spellings, a route that is the same in the two
spellings is found to mean the same. Where roots of the standard library are exchanged, this holds
as long as the budget lasts: a route that is cut short keeps the root that it is written with.

## Main definitions

* `Scope.Respelled`, `Names.Respelled`: what a module, or a program, declares in another spelling.
* `Paid.Respelled`: computations that yield the same in two spellings.

## Main results

* `Names.Respelled.lookup`: lookups find the same in two spellings.
* `Names.Respelled.isMissing_eq`, `Names.Respelled.knows_eq`: what a program declares, and what it
  does not, is the same in two spellings.
-/

namespace CapabilityGate

open Program Route

open List (Forall₂ rel_append rel_map)

variable {σ : Spelling}

/-! ### Scopes -/

/-- A scope is another one **in another spelling**. -/
structure Scope.Respelled (σ : Spelling) (s t : Scope) : Prop where
  /-- A name is imported in both, from the same target; and then it is a word. -/
  imports : ∀ {a b : String}, σ.Name a b →
    Option.Rel (fun x y => σ.word a b ∧ Written σ x y) (s.import? a) (t.import? b)
  /-- The globs are the same, in the same order. -/
  globs : Forall₂ (Written σ) s.globs t.globs
  /-- A name is that of an item in both or in neither. -/
  items : ∀ {a b : String}, σ.Name a b → s.items.contains a = t.items.contains b
  /-- A name is that of a module in both or in neither. -/
  modules : ∀ {a b : String}, σ.Name a b → s.modules.contains a = t.modules.contains b

/-- The names of a program are those of another one in another spelling. -/
structure Names.Respelled (σ : Spelling) (n o : Names) : Prop where
  /-- The scopes of a module are the same. -/
  scopeAt : ∀ {m m' : List String}, Forall₂ σ.Name m m' →
    (n.scopeAt m).Respelled σ (o.scopeAt m')
  /-- A module has a scope in both or in neither. -/
  isThere : ∀ {m m' : List String}, Forall₂ σ.Name m m' →
    (n.scope? m).isSome = (o.scope? m').isSome
  /-- Where standard roots are exchanged, no module declares a name of theirs. -/
  free : σ.roots = true → ∀ m, ∀ root ∈ standardRoots,
    (n.scopeAt m).declares root = false ∧ (o.scopeAt m).declares root = false
  /-- No import is without a target. -/
  targets : n.HasTargets

/-! ### Computations -/

/-- Two computations **yield the same** in two spellings, and leave as much, up to a budget of
`most`. Where roots are exchanged they need do so only as long as something is left. -/
def Paid.Respelled {α β : Type} (σ : Spelling) (most : Nat) (R : α → β → Prop) (c : Paid α)
    (d : Paid β) : Prop :=
  ∀ left ≤ most, (σ.roots = true → 0 < (c left).2) →
    R (c left).1 (d left).1 ∧ (c left).2 = (d left).2

namespace Paid.Respelled

variable {α β γ δ : Type} {most : Nat} {R : α → β → Prop} {S : γ → δ → Prop}

/-- Values that are related are found **for nothing** in both spellings. -/
theorem pure {a : α} {b : β} (h : R a b) :
    Paid.Respelled σ most R (Pure.pure a) (Pure.pure b) :=
  fun _ _ _ => ⟨h, rfl⟩

/-- Computations one after another yield the same when each of them does. -/
theorem bind {c : Paid α} {d : Paid β} {f : α → Paid γ} {g : β → Paid δ}
    (hc : Paid.Extends most 0 c c) (hf : ∀ a, Paid.Extends most 0 (f a) (f a))
    (h : Paid.Respelled σ most R c d)
    (hfg : ∀ a b, R a b → Paid.Respelled σ most S (f a) (g b)) :
    Paid.Respelled σ most S (c >>= f) (d >>= g) := by
  intro left hleft hspare
  have hfirst := (hc left hleft).1
  have hsecond := (hf (c left).1 (c left).2 (Nat.le_trans hfirst hleft)).1
  -- something is left after the first computation, since something is left after both
  obtain ⟨hab, hsame⟩ := h left hleft fun hroots => Nat.lt_of_lt_of_le (hspare hroots) hsecond
  have hrest := hfg _ _ hab (c left).2 (Nat.le_trans hfirst hleft) hspare
  have hbind : (d >>= g) left = g (d left).1 (c left).2 := by
    rw [hsame]
    rfl
  rw [hbind]
  exact hrest

/-- Computations for each member of a list yield the same one by one. -/
theorem mapM {f : α → Paid γ} {g : β → Paid δ} (hf : ∀ a, Paid.Extends most 0 (f a) (f a))
    (hfg : ∀ a b, R a b → Paid.Respelled σ most S (f a) (g b)) {as : List α} {bs : List β}
    (h : Forall₂ R as bs) :
    Paid.Respelled σ most (Forall₂ S) (as.mapM f) (bs.mapM g) := by
  induction h with
  | nil =>
      rw [List.mapM_nil, List.mapM_nil]
      exact pure .nil
  | @cons a b as bs hab hrest ih =>
      rw [List.mapM_cons, List.mapM_cons]
      refine bind (hf a) (fun _ => ?_) (hfg a b hab) fun x y hxy => ?_
      · exact (Paid.Extends.mapM hf as).bind fun _ => .pure _
      · exact bind (Paid.Extends.mapM hf as) (fun _ => .pure _) ih
          fun _ _ hmore => pure (.cons hxy hmore)

/-- Computations that are paid for first yield the same when they do behind that, and when both
are **cut short**. -/
theorem spend {c : Bool → Paid α} {d : Bool → Paid β} {a : α} {b : β}
    (h : Paid.Respelled σ most R (c true) (d true)) (hc : c false = Pure.pure a)
    (hd : d false = Pure.pure b) (hspent : σ.roots = false → R a b) :
    Paid.Respelled σ (most + 1) R (Paid.spend >>= c) (Paid.spend >>= d) := by
  intro left hleft hspare
  cases left with
  | zero =>
      have hzero : (Paid.spend >>= c) 0 = (a, 0) := congrFun hc 0
      have hzero' : (Paid.spend >>= d) 0 = (b, 0) := congrFun hd 0
      rw [hzero] at hspare ⊢
      rw [hzero']
      cases hroots : σ.roots with
      | true => exact absurd (hspare hroots) (Nat.lt_irrefl 0)
      | false => exact ⟨hspent hroots, rfl⟩
  | succ left => exact h left (Nat.le_of_succ_le_succ hleft) hspare

end Paid.Respelled

/-- Ways of looking up **find the same** in two spellings. -/
structure Lookup.Respelled (σ : Spelling) (most : Nat) (l m : Lookup) : Prop where
  /-- Routes that are written in a module. -/
  written : ∀ {a b : List String} {r s : Route} {t u : Option TypeName} {x y : Option String},
    Forall₂ σ.Name a b → Written σ r s → Option.Rel (TypeName.Respelled σ) t u →
      Option.Rel σ.word x y →
        Paid.Respelled σ most (Forall₂ (Found σ)) (l.written a r t x) (m.written b s u y)
  /-- Routes below a module. -/
  member : ∀ {a b : List String} {r s : Route}, Forall₂ σ.Name a b → r.Respelled σ s →
    Paid.Respelled σ most (Option.Rel (Forall₂ (Found σ))) (l.member a r) (m.member b s)

namespace Names

variable {n o : Names} {l m : Lookup} {most : Nat} {a b : List String} {r s : Route}

/-- Going up from a module leads to the same module in another spelling. -/
theorem ascend_respelled (h : r.Respelled σ s) (hmodule : Forall₂ σ.Name a b) :
    Forall₂ σ.Name (ascend a r).1 (ascend b s).1 ∧
      Route.Respelled σ (ascend a r).2 (ascend b s).2 := by
  induction h generalizing a b with
  | nil => exact ⟨hmodule, .nil⟩
  | cons hstep hrest ih =>
      rw [ascend, ascend, hstep.name.beq_known (by decide)]
      split
      · refine ih ?_
        rw [List.dropLast_eq_take, List.dropLast_eq_take, hmodule.length_eq]
        exact List.forall₂_take _ hmodule
      · exact ⟨hmodule, .cons hstep hrest⟩

/-- A name has the same path in the prelude in another spelling. -/
theorem prelude?_respelled {x y : String} (h : σ.Name x y) : prelude? x = prelude? y := by
  by_cases hx : x ∈ preludePaths.map Prod.fst
  · have hknown : x ∈ knownNames := by
      simp only [knownNames, List.mem_append]
      exact Or.inl (Or.inl (Or.inl (Or.inr hx)))
    rw [(h.eq_known_iff hknown).mp rfl]
  · have hy : y ∉ preludePaths.map Prod.fst := by
      intro hy
      have hknown : y ∈ knownNames := by
        simp only [knownNames, List.mem_append]
        exact Or.inl (Or.inl (Or.inl (Or.inr hy)))
      exact hx ((h.eq_known_iff hknown).mpr rfl ▸ hy)
    have hnone : ∀ {name : String}, name ∉ preludePaths.map Prod.fst → prelude? name = none := by
      intro name hname
      rw [prelude?, List.lookup_eq_none_iff]
      intro entry hentry
      rw [bne_iff_ne]
      rintro rfl
      exact hname (List.mem_map_of_mem hentry)
    rw [hnone hx, hnone hy]

/-- The path of a name of the prelude is in normal form, and its names are **known**. -/
theorem names_of_prelude {name path : String} (h : prelude? name = some path) :
    normalPath path = path ∧ ∀ part ∈ splitPath path, part ∈ knownNames := by
  refine ⟨normalPath_of_prelude h, fun part hpart => ?_⟩
  simp only [knownNames, List.mem_append]
  exact Or.inl (Or.inl (Or.inr (List.mem_flatMap.mpr ⟨(name, path), mem_of_prelude h, hpart⟩)))

/-- The path of a name of the prelude **keeps its spelling**. -/
theorem respelled_prelude {name path : String} (h : prelude? name = some path) :
    Found σ (ofPath path) (ofPath path) := by
  obtain ⟨hnormal, hknown⟩ := names_of_prelude h
  refine ⟨ofPath_ne_nil path,
    respelled_ofNames (List.forall₂_same.mpr fun part hpart => .of_known (hknown part ?_))⟩
  rwa [hnormal] at hpart

section Rules

variable (hn : n.Respelled σ o) (hl : Lookup.Extends most 0 l l) (h : Lookup.Respelled σ most l m)

include hl h in
/-- Below a module **the same is found in either spelling** if the lookups that are
asked find it. -/
theorem below_respelled (hmodule : Forall₂ σ.Name a b) (hroute : r.Respelled σ s) :
    Paid.Respelled σ most (Forall₂ (Found σ)) (below l a r) (below m b s) := by
  obtain ⟨hup, hrest⟩ := ascend_respelled hroute hmodule
  rw [below, below]
  generalize ascend a r = x at hup hrest
  generalize ascend b s = y at hup hrest
  obtain ⟨a, r⟩ := x
  obtain ⟨b, s⟩ := y
  simp only [isEmpty_eq_of_forall₂ hrest]
  split
  · exact .pure (.cons (.inModule hup .nil) .nil)
  · refine .bind (hl.member a r) (fun _ => .pure _) (h.member hup hrest) fun x y hxy => .pure ?_
    cases hxy with
    | none => exact .cons (.inModule hup hrest) .nil
    | some hxy => exact hxy

include hl h in
/-- So it is through an import. -/
theorem throughImport_respelled (hmodule : Forall₂ σ.Name a b) {x y : String} (hname : σ.word x y)
    {target target' : Route} (htarget : Written σ target target') (hroute : Written σ r s) :
    Paid.Respelled σ most (Forall₂ (Found σ)) (throughImport l a x target r)
      (throughImport m b y target' s) := by
  refine .bind (hl.written _ _ _ _) (fun _ => .pure _)
    (h.written hmodule htarget .none (.some hname)) fun found found' hfound => .pure ?_
  exact rel_map (fun _ _ hr => hr.substitute hroute) hfound

include hn in
/-- A route leads to a module of the program in both spellings or in neither. -/
theorem module?_respelled (hroute : r.Respelled σ s) :
    Option.Rel (Forall₂ σ.Name) (n.module? r) (o.module? s) := by
  cases hroute with
  | nil => exact .none
  | cons hstep hrest =>
      have hnames : Forall₂ σ.Name _ _ := Respelled.map_name hrest
      rw [module?, module?]
      simp only [hstep.name.beq_known (by decide : "crate" ∈ knownNames), hn.isThere hnames]
      split
      · exact .some hnames
      · exact .none

include hn hl h in
/-- Through a glob **the same is found in either spelling**. -/
theorem throughGlob_respelled (hroute : r.Respelled σ s) {above above' : Route}
    (habove : Found σ above above') :
    Paid.Respelled σ most (Forall₂ (Found σ)) (n.throughGlob l r above)
      (o.throughGlob m s above') := by
  have hmodule := module?_respelled hn habove.respelled
  rw [throughGlob, throughGlob]
  generalize n.module? above = x at hmodule
  generalize o.module? above' = y at hmodule
  cases hmodule with
  | none => exact .pure (.cons (habove.append hroute) .nil)
  | some hmodule =>
      refine .bind (hl.member _ _) (fun _ => .pure _) (h.member hmodule hroute)
        fun x y hxy => .pure ?_
      cases hxy with
      | none => exact .nil
      | some hxy => exact hxy

include hn hl h in
/-- So it is through all globs of a module. -/
theorem throughGlobs_respelled (hmodule : Forall₂ σ.Name a b) (hroute : r.Respelled σ s) :
    Paid.Respelled σ most (Forall₂ (Found σ)) (n.throughGlobs l a r)
      (o.throughGlobs m b s) := by
  have hone := fun above => hl.of_asks (n.throughGlob_asks r above)
  have hall := fun aboves => hl.of_asks (n.throughAboves_asks r aboves)
  have hglob := fun glob => hl.of_asks (n.throughTarget_asks a r glob)
  rw [throughGlobs_eq, throughGlobs_eq]
  refine .bind (R := Forall₂ (Forall₂ (Found σ))) (Paid.Extends.mapM hglob _)
    (fun _ => .pure _) ?_ fun _ _ hfound => .pure (List.rel_flatten hfound)
  refine .mapM hglob (fun glob glob' hwritten => ?_) (hn.scopeAt hmodule).globs
  refine .bind (hl.written _ _ _ _) hall (h.written hmodule hwritten .none .none)
    fun aboves aboves' haboves => ?_
  refine .bind (R := Forall₂ (Forall₂ (Found σ))) (Paid.Extends.mapM hone aboves)
    (fun _ => .pure _) ?_ fun _ _ hfound => .pure (List.rel_flatten hfound)
  exact .mapM hone (fun _ _ habove => throughGlob_respelled hn hl h hroute habove) haboves

include hn hl h in
/-- What no module declares is read as it is written, or found through globs, in both spellings.
Roots that are exchanged are never looked for in globs. -/
theorem undeclared_respelled (hmodule : Forall₂ σ.Name a b) {first other : Step}
    {rest more : Route} (hroute : Written σ (first :: rest) (other :: more)) :
    Paid.Respelled σ most (Forall₂ (Found σ)) (n.undeclared l a first rest)
      (o.undeclared m b other more) := by
  have hordered := fun found => hl.of_asks (ordered_asks first rest found)
  have hanswer : ∀ found found' : List Route, Forall₂ (Found σ) found found' →
      Paid.Respelled σ most (Forall₂ (Found σ))
        (if !rest.isEmpty && startsLower first.name then
          (Pure.pure (literal (first :: rest) :: found) : Paid (List Route))
          else Pure.pure (found ++ [literal (first :: rest)]))
        (if !more.isEmpty && startsLower other.name then
          (Pure.pure (literal (other :: more) :: found') : Paid (List Route))
          else Pure.pure (found' ++ [literal (other :: more)])) := by
    intro found found' hfound
    rw [isEmpty_eq_of_forall₂ hroute.tail, hroute.startsLower_eq]
    split
    · exact .pure (.cons (.literal hroute) hfound)
    · exact .pure (rel_append hfound (.cons (.literal hroute) .nil))
  rw [undeclared, undeclared, hroute.isRoot_eq]
  split
  next => exact .bind (.pure _) hordered (.pure .nil) hanswer
  next hroot =>
    exact .bind (hl.of_asks (n.throughGlobs_asks a _)) hordered
      (throughGlobs_respelled hn hl h hmodule (hroute.respelled hroot)) hanswer

include hn hl h in
/-- A name of a module is looked up in the same way in both spellings. -/
theorem byName_respelled (hmodule : Forall₂ σ.Name a b) {first other : Step} {rest more : Route}
    (hroute : Written σ (first :: rest) (other :: more)) {x y : Option String}
    (hskip : Option.Rel σ.word x y) :
    Paid.Respelled σ most (Forall₂ (Found σ)) (n.byName l a first rest x)
      (o.byName m b other more y) := by
  have hundeclared := undeclared_respelled hn hl h hmodule hroute
  have hscope := hn.scopeAt hmodule
  rw [scopeAt, scopeAt] at hscope
  cases hroute with
  | root hroots hfirst hother _ _ =>
      -- no module declares a standard root, so it is read as it is written
      have hfree := (hn.free hroots a _ hfirst).1
      have hfree' := (hn.free hroots b _ hother).2
      simp only [scopeAt, Scope.declares, Bool.or_eq_false_iff, Option.isSome_eq_false_iff,
        Option.isNone_iff_eq_none] at hfree hfree'
      have hprelude : ∀ root ∈ standardRoots, prelude? root = none := by decide
      simp only [byName, hfree.1.1, hfree.1.2, hfree.2, hfree'.1.1, hfree'.1.2, hfree'.2,
        hprelude _ hfirst, hprelude _ hother, ite_self, Bool.false_eq_true, if_false]
      exact hundeclared
  | same hsame =>
      cases hsame with
      | cons hstep hrest =>
          have himport : Option.Rel
              (fun s t => σ.word first.name other.name ∧ Written σ s t)
              (if x = some first.name then none
                else ((n.scope? a).getD .empty).import? first.name)
              (if y = some other.name then none
                else ((o.scope? b).getD .empty).import? other.name) := by
            cases hskip with
            | none => exact hscope.imports hstep.name
            | some hskip =>
                simp only [Option.some.injEq, eq_comm (b := first.name), eq_comm (b := other.name),
                  hstep.name.eq_iff hskip]
                split
                · exact .none
                · exact hscope.imports hstep.name
          rw [byName, byName]
          generalize (if x = some first.name then none
            else ((n.scope? a).getD .empty).import? first.name) = s at himport
          generalize (if y = some other.name then none
            else ((o.scope? b).getD .empty).import? other.name) = t at himport
          cases himport with
          | some himport =>
              exact throughImport_respelled hl h hmodule himport.1 himport.2
                (.same (.cons hstep hrest))
          | none =>
              simp only [hscope.modules hstep.name, hscope.items hstep.name,
                prelude?_respelled hstep.name]
              split
              · exact below_respelled hl h (rel_append hmodule (.cons hstep.name .nil)) hrest
              · split
                · exact .pure (.cons (.inModule hmodule (.cons hstep hrest)) .nil)
                · split
                  next path hpath =>
                    exact .pure (.cons ((respelled_prelude hpath).substitute
                      (.same (.cons hstep hrest))) .nil)
                  next => exact hundeclared

include hn hl h in
/-- **The rule for written routes** finds the same in either spelling. -/
theorem writtenRule_respelled (hmodule : Forall₂ σ.Name a b) (hroute : Written σ r s)
    {t u : Option TypeName} (howner : Option.Rel (TypeName.Respelled σ) t u)
    {x y : Option String} (hskip : Option.Rel σ.word x y) :
    Paid.Respelled σ (most + 1) (Forall₂ (Found σ)) (n.writtenRule l a r t x)
      (o.writtenRule m b s u y) := by
  have hcons : ∀ {first other : Step} {rest more : Route},
      Written σ (first :: rest) (other :: more) →
      Paid.Respelled σ (most + 1) (Forall₂ (Found σ))
        (n.writtenRule l a (first :: rest) t x) (o.writtenRule m b (other :: more) u y) := by
    intro first other rest more hroute
    refine Paid.Respelled.spend ?_ rfl rfl fun hroots => .cons (.inModule hmodule ?_) .nil
    · have hname := byName_respelled hn hl h hmodule hroute hskip
      have htype : Option.Rel (TypeName.Respelled σ)
          (if first.name == "Self" then t else none)
          (if other.name == "Self" then u else none) := by
        rw [hroute.beq_word (by decide)]
        split
        · exact howner
        · exact .none
      simp only [Bool.not_true, Bool.false_eq_true, if_false,
        hroute.beq_word (by decide : "crate" ∈ pathWords),
        hroute.beq_word (by decide : "self" ∈ pathWords),
        hroute.beq_word (by decide : "super" ∈ pathWords)]
      split
      · exact below_respelled hl h .nil hroute.tail
      · split
        · exact below_respelled hl h hmodule hroute.tail
        · split
          · rw [List.dropLast_eq_take, List.dropLast_eq_take, hmodule.length_eq]
            exact below_respelled hl h (List.forall₂_take _ hmodule) hroute.tail
          · generalize (if first.name == "Self" then t else none) = t' at htype
            generalize (if other.name == "Self" then u else none) = u' at htype
            cases htype with
            | none => exact hname
            | some htype =>
                exact .pure (.cons ((Found.ofType htype).substitute hroute) .nil)
    · cases hroute with
      | same hsame => exact hsame
      | root hroots' => exact Bool.noConfusion (hroots.symm.trans hroots')
  cases hroute with
  | same hsame =>
      cases hsame with
      | nil => exact .pure .nil
      | cons hstep hrest => exact hcons (.same (.cons hstep hrest))
  | root hroots hfirst hother hargs hrest =>
      exact hcons (.root hroots hfirst hother hargs hrest)

include hn hl h in
/-- So does **the rule for routes below a module**. -/
theorem memberRule_respelled (hmodule : Forall₂ σ.Name a b) (hroute : r.Respelled σ s) :
    Paid.Respelled σ (most + 1) (Option.Rel (Forall₂ (Found σ))) (n.memberRule l a r)
      (o.memberRule m b s) := by
  have hglobs := throughGlobs_respelled hn hl h hmodule hroute
  have hscope := hn.scopeAt hmodule
  cases hroute with
  | nil => exact .pure .none
  | @cons first other rest more hstep hrest =>
      have himport := hscope.imports hstep.name
      rw [memberRule_cons, memberRule_cons]
      refine Paid.Respelled.spend ?_ rfl rfl fun _ =>
        .some (.cons (.inModule hmodule (.cons hstep hrest)) .nil)
      simp only [Bool.not_true, Bool.false_eq_true, if_false, hscope.modules hstep.name,
        hscope.items hstep.name]
      generalize (n.scopeAt a).import? first.name = x at himport
      generalize (o.scopeAt b).import? other.name = y at himport
      cases himport with
      | some himport =>
          exact .bind (hl.of_asks (throughImport_asks _ _ _ _)) (fun _ => .pure _)
            (throughImport_respelled hl h hmodule himport.1 himport.2 (.same (.cons hstep hrest)))
            fun _ _ hfound => .pure (.some hfound)
      | none =>
          dsimp only
          split
          · exact .bind (hl.of_asks (below_asks _ _)) (fun _ => .pure _)
              (below_respelled hl h (rel_append hmodule (.cons hstep.name .nil)) hrest)
              fun _ _ hfound => .pure (.some hfound)
          · split
            · exact .pure (.some (.cons (.inModule hmodule (.cons hstep hrest)) .nil))
            · refine .bind (hl.of_asks (n.throughGlobs_asks a _)) (fun _ => .pure _) hglobs
                fun found found' hfound => ?_
              rw [isEmpty_eq_of_forall₂ hfound]
              split
              · exact .pure .none
              · exact .pure (.some hfound)

end Rules

/-- **Lookups find the same in two spellings**, up to a budget that their depth can pay for. -/
theorem Respelled.lookup (hn : n.Respelled σ o) {depth : Nat} (hdepth : most ≤ depth) :
    Lookup.Respelled σ most (n.lookup depth) (o.lookup depth) := by
  induction most generalizing depth with
  | zero =>
      refine ⟨fun hmodule hroute _ _ left hleft hspare => ?_,
        fun hmodule hroute left hleft hspare => ?_⟩
      · obtain rfl := Nat.le_zero.mp hleft
        rw [written_cut] at hspare ⊢
        rw [written_cut]
        refine ⟨?_, rfl⟩
        cases hroute with
        | root hroots => exact absurd (hspare hroots) (Nat.lt_irrefl 0)
        | same hroute =>
            rw [isEmpty_eq_of_forall₂ hroute]
            split
            · exact .nil
            · exact .cons (.inModule hmodule hroute) .nil
      · obtain rfl := Nat.le_zero.mp hleft
        rw [member_cut, member_cut, isEmpty_eq_of_forall₂ hroute]
        refine ⟨?_, rfl⟩
        split
        · exact .none
        · exact .some (.cons (.inModule hmodule hroute) .nil)
  | succ most ih =>
      obtain ⟨depth, rfl⟩ : ∃ d, depth = d + 1 := ⟨depth - 1, by omega⟩
      have hinner := ih (Nat.le_of_succ_le_succ hdepth)
      have hextends : Lookup.Extends most 0 (n.lookup depth) (n.lookup depth) :=
        n.lookup_extends (Nat.le_of_succ_le_succ hdepth) (Nat.le_of_succ_le_succ hdepth)
      refine ⟨fun hmodule hroute howner hskip => ?_, fun hmodule hroute => ?_⟩
      · rw [lookup_written, lookup_written]
        exact writtenRule_respelled hn hextends hinner hmodule hroute howner hskip
      · rw [lookup_member, lookup_member]
        exact memberRule_respelled hn hextends hinner hmodule hroute

/-- A route **means the same in two spellings**: it has the same candidates in the same order. Where
roots are exchanged, the lookup is to leave something of its budget. -/
theorem Respelled.candidates (hn : n.Respelled σ o) (hmodule : Forall₂ σ.Name a b)
    (hroute : Written σ r s) {t u : Option TypeName}
    (howner : Option.Rel (TypeName.Respelled σ) t u)
    (hspare : σ.roots = true → 0 < (n.candidatesWithin lookupBudget a r t).2) :
    Forall₂ (Found σ) (n.candidates a r t) (o.candidates b s u) :=
  ((hn.lookup (Nat.le_refl lookupBudget)).written hmodule hroute howner .none lookupBudget
    (Nat.le_refl _) hspare).1

/-! ### What is declared -/

/-- The names lead to nothing that is declared **in both spellings or in neither**. -/
theorem Respelled.isMissing_eq (hn : n.Respelled σ o) (hmodule : Forall₂ σ.Name a b)
    {as bs : List String} (h : Forall₂ σ.Name as bs) : n.isMissing a as = o.isMissing b bs := by
  induction h generalizing a b with
  | nil => rfl
  | cons hname hrest ih =>
      have hscope := hn.scopeAt hmodule
      rw [isMissing_cons, isMissing_cons, hscope.items hname, hscope.modules hname,
        ih (rel_append hmodule (.cons hname .nil))]

/-- A module knows a name in both spellings or in neither. -/
theorem Respelled.knows_eq (hn : n.Respelled σ o) (hmodule : Forall₂ σ.Name a b) {x y : String}
    (hname : σ.Name x y) : n.knows a x = o.knows b y := by
  have hscope := hn.scopeAt hmodule
  have hsome : ∀ {R : Route → Route → Prop} {s t : Option Route}, Option.Rel R s t →
      s.isSome = t.isSome := by
    intro R s t h
    cases h <;> rfl
  rw [knows_eq_scopeAt, knows_eq_scopeAt, prelude?_respelled hname, Scope.declares,
    Scope.declares, hsome (hscope.imports hname), hscope.items hname, hscope.modules hname]

end Names

end CapabilityGate
