import CapabilityGate.Proofs.Resolution.Affordable
import CapabilityGate.Proofs.Resolution.Candidates
import CapabilityGate.Proofs.Resolution.DeclarationOrder
import CapabilityGate.Proofs.Resolution.RespelledLookup

/-!
# The names of programs in two spellings

The scopes of a program are filled by its declarations, one after another. Programs in two spellings
fill them with the same, in the two spellings. Where roots of the standard library are exchanged,
no declaration may bind one of their names, and no name for a type may use up the budget of its
lookups.

## Main definitions

* `SourceFile.bindsNoRoot`: no module of a program binds a name of a standard root.

## Main results

* `Names.Respelled.typeMeaning`: types mean the same in two spellings.
* `Names.respelled_ofProgram`: the names of programs in two spellings are the same.
-/

namespace CapabilityGate

open Program Route

open List (Forall₂ rel_append rel_map)

variable {σ : Spelling}

namespace Names

variable {n o : Names} {m m' : List String}

/-! ### The meaning of types -/

/-- A route that is not empty has a first candidate, which **is found in both spellings**. -/
theorem Respelled.head_candidates (hn : n.Respelled σ o) (hmodule : Forall₂ σ.Name m m')
    {r s : Route} (hroute : Written σ r s) (hne : r ≠ []) {t u : Option TypeName}
    (howner : Option.Rel (TypeName.Respelled σ) t u)
    (hspare : σ.roots = true → n.affords m r t = true) :
    ∃ first other rest more, n.candidates m r t = first :: rest ∧
      o.candidates m' s u = other :: more ∧ Found σ first other := by
  have hfound := hn.candidates hmodule hroute howner fun hroots =>
    of_decide_eq_true (hspare hroots)
  have hsome : n.candidates m r t ≠ [] :=
    (lookup_fills hn.targets lookupBudget).written m r t none hne lookupBudget
  revert hfound hsome
  generalize n.candidates m r t = found
  generalize o.candidates m' s u = others
  intro hfound hsome
  cases hfound with
  | nil => exact absurd rfl hsome
  | cons hfirst _ => exact ⟨_, _, _, _, rfl, rfl, hfirst⟩

mutual

/-- **Types mean the same** in two spellings. Where roots are exchanged, their lookups are to leave
something of their budgets. -/
theorem Respelled.typeMeaning (hn : n.Respelled σ o) (hmodule : Forall₂ σ.Name m m')
    {t u : Option TypeName} (howner : Option.Rel (TypeName.Respelled σ) t u) : ∀ {x y : Ty},
    x.Respelled σ y → (σ.roots = true → n.affordsType m t x = true) →
      (n.typeMeaning m t x).Respelled σ (o.typeMeaning m' u y)
  | .path (.mk _ ss), .path (.mk _ ts), .path hne h, hspare => by
    have hsegments : σ.roots = true → n.affordsSegments m t ss = true ∧
        n.affords m (n.stepsOf m t ss) t = true := fun hroots => by
      simpa [affordsType] using hspare hroots
    have hroute := hn.written_of_path hmodule howner h fun hroots => (hsegments hroots).1
    have hsteps : n.stepsOf m t ss ≠ [] := by
      cases ss with
      | nil => exact absurd rfl hne
      | cons first rest =>
          cases first
          exact List.cons_ne_nil _ _
    obtain ⟨first, other, rest, more, hfirst, hother, hfound⟩ :=
      hn.head_candidates hmodule hroute hsteps howner fun hroots => (hsegments hroots).2
    rw [Path.segments] at hfirst hother
    rw [Names.typeMeaning, Names.typeMeaning, hfirst, hother]
    exact hfound.type
  | .wrapped _, .wrapped _, .wrapped h, hspare => by
    rw [Names.typeMeaning, Names.typeMeaning]
    exact hn.typeMeaning hmodule howner h hspare
  | .other text _, .other _ _, .other htext _, _ => by
    rw [Names.typeMeaning, Names.typeMeaning]
    exact .mk htext.path .nil

/-- A path spells **the same route** in two spellings, perhaps with another root. -/
theorem Respelled.written_of_path (hn : n.Respelled σ o) (hmodule : Forall₂ σ.Name m m')
    {t u : Option TypeName} (howner : Option.Rel (TypeName.Respelled σ) t u) : ∀ {p q : Path},
    p.Respelled σ q → (σ.roots = true → n.affordsSegments m t p.segments = true) →
      Written σ (n.stepsOf m t p.segments) (o.stepsOf m' u q.segments)
  | .mk _ _, .mk _ _, .mk h, hspare => .same (hn.stepsOf hmodule howner h hspare)
  | .mk _ (.mk v style as :: ss), .mk _ (.mk w _ bs :: ts), .root hroots hv hw h hrest, hspare => by
    have hboth := affordsSegments_cons.mp (hspare hroots)
    have hsteps := hn.stepsOf hmodule howner hrest fun _ => hboth.2
    rw [Path.segments, Path.segments, Names.stepsOf, Names.stepsOf]
    refine .root hroots hv hw ?_ hsteps
    split
    next hangle => exact hn.argumentsOf hmodule howner h fun _ => hboth.1 hangle
    next => exact .nil

/-- The segments of a path are steps **in the other spelling**. -/
theorem Respelled.stepsOf (hn : n.Respelled σ o) (hmodule : Forall₂ σ.Name m m')
    {t u : Option TypeName} (howner : Option.Rel (TypeName.Respelled σ) t u) :
    ∀ {ss ts : List Segment}, SegmentsRespelled σ ss ts →
      (σ.roots = true → n.affordsSegments m t ss = true) →
        Route.Respelled σ (n.stepsOf m t ss) (o.stepsOf m' u ts)
  | _, _, .nil, _ => .nil
  | .mk v style as :: ss, .mk w _ bs :: ts, .cons hword h hrest, hspare => by
    have hboth := fun hroots => affordsSegments_cons.mp (hspare hroots)
    rw [Names.stepsOf, Names.stepsOf]
    refine .cons ⟨Or.inl hword, ?_⟩
      (hn.stepsOf hmodule howner hrest fun hroots => (hboth hroots).2)
    split
    next hangle =>
      exact hn.argumentsOf hmodule howner h fun hroots => (hboth hroots).1 hangle
    next => exact .nil

/-- Its arguments are types in the other spelling. -/
theorem Respelled.argumentsOf (hn : n.Respelled σ o) (hmodule : Forall₂ σ.Name m m')
    {t u : Option TypeName} (howner : Option.Rel (TypeName.Respelled σ) t u) :
    ∀ {as bs : List Part}, PartsRespelled σ as bs →
      (σ.roots = true → n.affordsArguments m t as = true) →
        TypesRespelled σ (n.argumentsOf m t as) (o.argumentsOf m' u bs)
  | _, _, .nil, _ => .nil
  | _, _, .cons (.type h) hrest, hspare => by
    have hboth := fun hroots => Bool.and_eq_true_iff.mp (hspare hroots)
    rw [Names.argumentsOf, Names.argumentsOf]
    exact .cons (hn.typeMeaning hmodule howner h fun hroots => (hboth hroots).1)
      (hn.argumentsOf hmodule howner hrest fun hroots => (hboth hroots).2)
  | _, _, .cons (.expr _) hrest, hspare => (hn.argumentsOf hmodule howner hrest hspare :)
  | _, _, .cons (.pattern _) hrest, hspare => (hn.argumentsOf hmodule howner hrest hspare :)
  | _, _, .cons (.item _) hrest, hspare => (hn.argumentsOf hmodule howner hrest hspare :)
  | _, _, .cons (.path _) hrest, hspare => (hn.argumentsOf hmodule howner hrest hspare :)
  | _, _, .cons (.invoke _) hrest, hspare => (hn.argumentsOf hmodule howner hrest hspare :)
  | _, _, .cons (.binding ..) hrest, hspare => (hn.argumentsOf hmodule howner hrest hspare :)
  | _, _, .cons (.group _) hrest, hspare => (hn.argumentsOf hmodule howner hrest hspare :)

end

end Names

/-! ### Imports -/

/-- The names of a target are the same **in another spelling**, or but for the standard root that
they start with. -/
inductive Spelling.Target (σ : Spelling) : List String → List String → Prop
  | same {as bs : List String} (h : Forall₂ σ.word as bs) : Target σ as bs
  | root {first other : String} {rest more : List String} (hroots : σ.roots = true)
      (hfirst : first ∈ standardRoots) (hother : other ∈ standardRoots)
      (hrest : Forall₂ σ.word rest more) : Target σ (first :: rest) (other :: more)

namespace Spelling.Target

variable {as bs : List String}

/-- One more name is the same in another spelling, or nothing stands before it. -/
theorem concat (h : σ.Target as bs) {a b : String}
    (hname : σ.word a b ∨ (as = [] ∧ bs = []) ∧ σ.First a b) :
    σ.Target (as ++ [a]) (bs ++ [b]) := by
  rcases hname with hname | ⟨⟨rfl, rfl⟩, hname | ⟨hroots, ha, hb⟩⟩
  · cases h with
    | same h => exact .same (rel_append h (.cons hname .nil))
    | root hroots hfirst hother hrest =>
        exact .root hroots hfirst hother (rel_append hrest (.cons hname .nil))
  · exact .same (.cons hname .nil)
  · exact .root hroots ha hb .nil

/-- Targets of imports in two spellings are **both empty, or neither is**. -/
theorem isEmpty_eq (h : σ.Target as bs) : as.isEmpty = bs.isEmpty := by
  cases h with
  | same h => exact isEmpty_eq_of_forall₂ h
  | root => rfl

/-- The last name is the same in another spelling, or it is a standard root. -/
theorem getLast? (h : σ.Target as bs) : Option.Rel σ.First as.getLast? bs.getLast? := by
  have hlast : ∀ {as bs : List String} {x y : String}, Forall₂ σ.word as bs → σ.First x y →
      σ.First (as.getLast?.getD x) (bs.getLast?.getD y) := by
    intro as bs x y h hname
    induction h generalizing x y with
    | nil => exact hname
    | cons h _ ih =>
        rw [List.getLast?_cons, List.getLast?_cons]
        exact ih (Or.inl h)
  cases h with
  | same h =>
      cases h with
      | nil => exact .none
      | cons h hrest =>
          rw [List.getLast?_cons, List.getLast?_cons]
          exact .some (hlast hrest (Or.inl h))
  | root hroots hfirst hother hrest =>
      rw [List.getLast?_cons, List.getLast?_cons]
      exact .some (hlast hrest (Or.inr ⟨hroots, hfirst, hother⟩))

/-- The route along the names is the same, perhaps with another root. -/
theorem written (h : σ.Target as bs) : Written σ (ofNames as) (ofNames bs) := by
  have hnames : ∀ {as bs : List String}, Forall₂ σ.word as bs →
      Route.Respelled σ (ofNames as) (ofNames bs) :=
    fun h => respelled_ofNames (h.imp fun _ _ => Or.inl)
  cases h with
  | same h => exact .same (hnames h)
  | root hroots hfirst hother hrest => exact .root hroots hfirst hother .nil (hnames hrest)

end Spelling.Target

namespace Program

/-- A leaf of a `use` item is another one **in another spelling**. -/
inductive Import.Respelled (σ : Spelling) : Import → Import → Prop
  | name {x y : String} {as bs : List String} (hname : σ.First x y) (htarget : σ.Target as bs) :
      Import.Respelled σ (.name x as) (.name y bs)
  | glob {as bs : List String} (htarget : σ.Target as bs) :
      Import.Respelled σ (.glob as) (.glob bs)

mutual

/-- A tree **imports the same** in another spelling. Nothing stands above the start of a path. -/
theorem UseTree.Respelled.imports : ∀ {top : Bool} {t u : UseTree}, t.Respelled σ top u →
    ∀ {as bs : List String}, (top = true → as = [] ∧ bs = []) → σ.Target as bs →
      Forall₂ (Import.Respelled σ) (t.imports as) (u.imports bs)
  | _, _, _, @UseTree.Respelled.name _ _ v w h, as, bs, _, habove => by
    have hself : (v.text == "self") = (w.text == "self") :=
      Spelling.Name.beq_known (Or.inl h) (by decide)
    rw [UseTree.imports, UseTree.imports, hself]
    split
    · have hlast := habove.getLast?
      generalize as.getLast? = x at hlast
      generalize bs.getLast? = y at hlast
      cases hlast with
      | none => exact .nil
      | some hname => exact .cons (.name hname habove) .nil
    · exact .cons (.name (Or.inl h) (habove.concat (Or.inl h))) .nil
  | _, _, _, @UseTree.Respelled.rename _ top v w _ _ h halias, as, bs, htop, habove => by
    have hself : (v.text == "self") = (w.text == "self") := by
      have hroots : ∀ root ∈ standardRoots, (root == "self") = false := by decide
      rcases h with h | ⟨-, h | ⟨-, hv, hw⟩⟩
      · exact Spelling.Name.beq_known (Or.inl h) (by decide)
      · exact Spelling.Name.beq_known (Or.inl h) (by decide)
      · rw [hroots _ hv, hroots _ hw]
    rw [UseTree.imports, UseTree.imports, hself]
    refine .cons (.name (Or.inl halias) ?_) .nil
    split
    · exact habove
    · exact habove.concat (h.imp_right fun ⟨ht, hfirst⟩ => ⟨htop ht, hfirst⟩)
  | _, _, _, .glob, _, _, _, habove => by
    rw [UseTree.imports, UseTree.imports]
    exact .cons (.glob habove) .nil
  | _, _, _, .under h htree, _, _, htop, habove => by
    rw [UseTree.imports, UseTree.imports]
    exact htree.imports (fun hfalse => Bool.noConfusion hfalse)
      (habove.concat (h.imp_right fun ⟨ht, hfirst⟩ => ⟨htop ht, hfirst⟩))
  | _, _, _, .group h, _, _, htop, habove => by
    rw [UseTree.imports, UseTree.imports]
    exact h.imports htop habove

/-- Trees of imports in another spelling import **the same names of that spelling from the same
targets of it**. -/
theorem UseTreesRespelled.imports : ∀ {top : Bool} {ts us : List UseTree},
    UseTreesRespelled σ top ts us → ∀ {as bs : List String}, (top = true → as = [] ∧ bs = []) →
      σ.Target as bs → Forall₂ (Import.Respelled σ) (importsOfTrees as ts) (importsOfTrees bs us)
  | _, _, _, .nil, _, _, _, _ => by
    rw [importsOfTrees, importsOfTrees]
    exact .nil
  | _, _, _, .cons h hrest, _, _, htop, habove => by
    rw [importsOfTrees, importsOfTrees]
    exact rel_append (h.imports htop habove) (hrest.imports htop habove)

end

end Program

/-! ### Scopes -/

/-- Two changes of scopes **keep scopes the same** in two spellings, declare no standard root where
roots are exchanged, and leave no import without a target. -/
structure Scope.Change (σ : Spelling) (f g : Scope → Scope) : Prop where
  /-- Scopes that are the same stay so. -/
  respelled : ∀ {s t : Scope}, s.Respelled σ t → (f s).Respelled σ (g t)
  /-- No standard root is declared. -/
  free : σ.roots = true → ∀ root ∈ standardRoots, ∀ s : Scope, s.declares root = false →
    (f s).declares root = false ∧ (g s).declares root = false
  /-- No import is without a target. -/
  targets : ∀ s : Scope, s.HasTargets → (f s).HasTargets

namespace Scope.Change

variable {x y : String}

/-- Nothing changes **in either spelling**. -/
theorem refl : Scope.Change σ id id :=
  ⟨fun h => h, fun _ _ _ _ h => ⟨h, h⟩, fun _ h => h⟩

/-- A name that is no standard root is another name than those. -/
theorem beq_root_eq_false (hname : σ.word x y) (hroots : σ.roots = true) {root : String}
    (hfree : x ∉ standardRoots) (hroot : root ∈ standardRoots) :
    (root == x) = false ∧ (root == y) = false := by
  have hne : (root == x) = false := beq_eq_false_iff_ne.mpr fun h => hfree (h ▸ hroot)
  exact ⟨hne, σ.eq_of_roots hroots hname ▸ hne⟩

/-- An import changes a scope **in the other spelling** as it does in the first. -/
theorem addImport (hname : σ.word x y) (hfree : σ.roots = true → x ∉ standardRoots)
    {target other : Route} (htarget : Written σ target other) (hne : target ≠ []) :
    Scope.Change σ (.addImport x target) (.addImport y other) where
  respelled h := by
    refine ⟨fun {a b} hab => ?_, h.globs, h.items, h.modules⟩
    have hkey : (a == x) = (b == y) :=
      Bool.eq_iff_iff.mpr (by simpa using hab.eq_iff hname)
    simp only [import?, Scope.addImport, List.lookup_cons, hkey]
    split
    next heq =>
      have hword : σ.word a b := by
        rwa [(beq_iff_eq.mp heq), (hab.eq_iff hname).mpr (beq_iff_eq.mp heq)]
      exact .some ⟨hword, htarget⟩
    next => exact h.imports hab
  free hroots root hroot s hs := by
    obtain ⟨hx, hy⟩ := beq_root_eq_false hname hroots (hfree hroots) hroot
    simp only [declares, import?, Scope.addImport, List.lookup_cons, hx, hy]
    exact ⟨hs, hs⟩
  targets _ h := h.addImport x hne

/-- So does a glob. -/
theorem addGlob {target other : Route} (htarget : Written σ target other) :
    Scope.Change σ (.addGlob target) (.addGlob other) where
  respelled h := ⟨h.imports, rel_append h.globs (.cons htarget .nil), h.items, h.modules⟩
  free _ _ _ _ hs := ⟨hs, hs⟩
  targets _ h := h

/-- So does an item. -/
theorem addItem (hname : σ.word x y) (hfree : σ.roots = true → x ∉ standardRoots) :
    Scope.Change σ (.addItem x) (.addItem y) where
  respelled h := by
    refine ⟨h.imports, h.globs, fun {a b} hab => ?_, h.modules⟩
    have hkey : (a == x) = (b == y) :=
      Bool.eq_iff_iff.mpr (by simpa using hab.eq_iff hname)
    rw [Scope.addItem, Scope.addItem, List.contains_cons, List.contains_cons, hkey, h.items hab]
  free hroots root hroot s hs := by
    obtain ⟨hx, hy⟩ := beq_root_eq_false hname hroots (hfree hroots) hroot
    simp only [declares, Scope.addItem, List.contains_cons, hx, hy, Bool.false_or]
    exact ⟨hs, hs⟩
  targets _ h := h

/-- So does a module. -/
theorem addModule (hname : σ.word x y) (hfree : σ.roots = true → x ∉ standardRoots) :
    Scope.Change σ (.addModule x) (.addModule y) where
  respelled h := by
    refine ⟨h.imports, h.globs, h.items, fun {a b} hab => ?_⟩
    have hkey : (a == x) = (b == y) :=
      Bool.eq_iff_iff.mpr (by simpa using hab.eq_iff hname)
    rw [Scope.addModule, Scope.addModule, List.contains_cons, List.contains_cons, hkey,
      h.modules hab]
  free hroots root hroot s hs := by
    obtain ⟨hx, hy⟩ := beq_root_eq_false hname hroots (hfree hroots) hroot
    simp only [declares, Scope.addModule, List.contains_cons, hx, hy, Bool.false_or]
    exact ⟨hs, hs⟩
  targets _ h := h

end Scope.Change

namespace Names

variable {n o : Names} {m m' : List String}

/-- A change of the scope of a module keeps the names of programs in two spellings the same. -/
theorem Respelled.update (hn : n.Respelled σ o) (hmodule : Forall₂ σ.word m m')
    {f g : Scope → Scope} (h : Scope.Change σ f g) :
    (n.update m f).Respelled σ (o.update m' g) := by
  refine ⟨fun {a b} hab => ?_, fun {a b} hab => ?_, fun hroots a root hroot => ?_,
    hn.targets.update m h.targets⟩
  · have hkey := Spelling.names_eq_iff hab hmodule
    rw [scopeAt_update, scopeAt_update]
    by_cases ha : a = m
    · rw [if_pos ha, if_pos (hkey.mp ha)]
      exact h.respelled (hn.scopeAt hab)
    · rw [if_neg ha, if_neg fun hb => ha (hkey.mpr hb)]
      exact hn.scopeAt hab
  · rw [Bool.eq_iff_iff, isSome_scope?_update, isSome_scope?_update, hn.isThere hab,
      Spelling.names_eq_iff hab hmodule]
  · obtain ⟨hfree, hfree'⟩ := hn.free hroots a root hroot
    rw [scopeAt_update, scopeAt_update]
    constructor
    · split
      · exact (h.free hroots root hroot _ hfree).1
      · exact hfree
    · split
      · exact (h.free hroots root hroot _ hfree').2
      · exact hfree'

/-- Names of locals **are not looked up**, so they may be any. -/
theorem Respelled.addLocal (hn : n.Respelled σ o) (x y : String) :
    (n.addLocal x).Respelled σ (o.addLocal y) :=
  ⟨hn.scopeAt, hn.isThere, hn.free, hn.targets⟩

/-- Programs that declare nothing have the same names. -/
theorem respelled_empty : Names.empty.Respelled σ Names.empty := by
  refine ⟨fun _ => ?_, fun {a b} hab => ?_, fun _ m root _ => ?_, fun m name target hfound => ?_⟩
  · rw [scopeAt_empty, scopeAt_empty]
    exact ⟨fun _ => .none, .nil, fun _ => rfl, fun _ => rfl⟩
  · cases hab <;> rfl
  · rw [scopeAt_empty]
    exact ⟨rfl, rfl⟩
  · rw [scopeAt_empty] at hfound
    exact absurd hfound (Option.some_ne_none target).symm

/-- A leaf of a `use` item imports the same in two spellings. -/
theorem Respelled.addLeaf (hn : n.Respelled σ o) (hmodule : Forall₂ σ.word m m') {i j : Import}
    (h : i.Respelled σ j)
    (hfree : σ.roots = true → ∀ b ∈ bindingsOfLeaf i, b.1 ∉ standardRoots) :
    (n.addLeaf m i).Respelled σ (o.addLeaf m' j) := by
  cases h with
  | glob htarget => exact hn.update hmodule (.addGlob htarget.written)
  | @name x y as bs hname htarget =>
      have hroots : ∀ root ∈ standardRoots, (root == "_") = false := by decide
      have hside : (x == "_") = (y == "_") := by
        rcases hname with h | ⟨-, hx, hy⟩
        · exact Spelling.Name.beq_known (Or.inl h) (by decide)
        · rw [hroots _ hx, hroots _ hy]
      rw [Names.addLeaf, Names.addLeaf, Names.addImport, Names.addImport, ← hside,
        ← htarget.isEmpty_eq]
      rw [bindingsOfLeaf] at hfree
      split
      next => exact hn
      next hadded =>
        rw [if_neg hadded] at hfree
        have hbound : σ.roots = true → x ∉ standardRoots :=
          fun h => hfree h _ (List.mem_singleton.mpr rfl)
        have hword : σ.word x y := by
          rcases hname with h | ⟨h, hx, -⟩
          · exact h
          · exact absurd hx (hbound h)
        refine hn.update hmodule (.addImport hword hbound htarget.written ?_)
        simp only [Bool.or_eq_true, not_or, List.isEmpty_iff] at hadded
        simpa [ofNames] using hadded.2

/-- All leaves of a tree of imports change the names of a program **in the other spelling** as they
do in the first. -/
theorem Respelled.foldl_addLeaf (hn : n.Respelled σ o) (hmodule : Forall₂ σ.word m m')
    {is js : List Import} (h : Forall₂ (Import.Respelled σ) is js)
    (hfree : σ.roots = true → ∀ b ∈ is.flatMap bindingsOfLeaf, b.1 ∉ standardRoots) :
    (is.foldl (Names.addLeaf m) n).Respelled σ (js.foldl (Names.addLeaf m') o) := by
  induction h generalizing n o with
  | nil => exact hn
  | cons h _ ih =>
      rw [List.foldl_cons, List.foldl_cons]
      refine ih (hn.addLeaf hmodule h fun hroots b hb => ?_) fun hroots b hb => ?_
      · exact hfree hroots b (List.mem_append_left _ hb)
      · exact hfree hroots b (List.mem_append_right _ hb)

/-- A declaration declares the same in two spellings. -/
theorem Respelled.declare (hn : n.Respelled σ o) {d e : Declaration} (h : d.Respelled σ e)
    (hfree : σ.roots = true → ∀ b ∈ bindingsOf d, b.1 ∉ standardRoots) :
    (n.declare d).Respelled σ (o.declare e) := by
  obtain ⟨m, what⟩ := d
  obtain ⟨m', other⟩ := e
  obtain ⟨hmodule, hwhat⟩ := h
  cases hwhat with
  | item h =>
      exact (hn.addLocal _ _).update hmodule
        (.addItem h fun hroots => hfree hroots _ (List.mem_singleton.mpr rfl))
  | module h =>
      exact ((hn.addLocal _ _).update hmodule
        (.addModule h fun hroots => hfree hroots _ (List.mem_singleton.mpr rfl))).update
          (rel_append hmodule (.cons h .nil)) .refl
  | use h =>
      exact hn.foldl_addLeaf hmodule (h.imports (fun _ => ⟨rfl, rfl⟩) (.same .nil)) hfree
  | crate h halias =>
      cases halias with
      | none => exact hn
      | some halias =>
          exact hn.addLeaf hmodule (.name (Or.inl halias) (.same (.cons h .nil))) hfree
  | typeAlias _ _ => exact hn

/-- A name for a type is the same in two spellings. -/
theorem Respelled.addAlias (hn : n.Respelled σ o) {d e : Declaration} (h : d.Respelled σ e)
    (hfree : σ.roots = true → ∀ b ∈ bindingsOf d, b.1 ∉ standardRoots)
    (hspare : σ.roots = true → n.affordsAlias d = true) :
    (n.addAlias d).Respelled σ (o.addAlias e) := by
  obtain ⟨m, what⟩ := d
  obtain ⟨m', other⟩ := e
  obtain ⟨hmodule, hwhat⟩ := h
  cases hwhat with
  | typeAlias h htype =>
      have hmeaning := hn.typeMeaning (hmodule.imp fun _ _ => Or.inl) .none htype hspare
      exact hn.update hmodule
        (.addImport h (fun hroots => hfree hroots _ (List.mem_singleton.mpr rfl))
          (.same (respelled_ofType hmeaning)) (ofType_ne_nil _))
  | _ => exact hn

end Names

/-! ### Programs -/

/-- Whether no module of a program **binds a name of a standard root**. -/
def Program.SourceFile.bindsNoRoot (p : SourceFile) : Bool :=
  p.declarations.all fun d => (bindingsOf d).all fun b => !standardRoots.contains b.1

namespace Names

/-- **The names of programs in two spellings** are the same. Where roots are exchanged, none of them
is to be bound, and no name for a type is to use up the budget of its lookups. -/
theorem respelled_ofProgram {p q : SourceFile} (h : p.Respelled σ q)
    (hfree : σ.roots = true → p.bindsNoRoot = true)
    (hspare : σ.roots = true →
      (Names.ofDeclarations p.declarations).affordsAliases p.declarations = true) :
    (Names.ofProgram p).Respelled σ (Names.ofProgram q) := by
  have hbound : σ.roots = true → ∀ d ∈ p.declarations, ∀ b ∈ bindingsOf d,
      b.1 ∉ standardRoots := by
    intro hroots d hd b hb
    have hall := List.all_eq_true.mp (List.all_eq_true.mp (hfree hroots) d hd) b hb
    simpa using hall
  have hdeclared := h.declared
  have hnames : (Names.ofDeclarations p.declarations).Respelled σ
      (Names.ofDeclarations q.declarations) := by
    have hfold : ∀ {ds es : List Declaration}, Forall₂ (Declaration.Respelled σ) ds es →
        (σ.roots = true → ∀ d ∈ ds, ∀ b ∈ bindingsOf d, b.1 ∉ standardRoots) →
          ∀ {n o : Names}, n.Respelled σ o →
            (ds.foldl Names.declare n).Respelled σ (es.foldl Names.declare o) := by
      intro ds es hds
      induction hds with
      | nil => exact fun _ _ _ hn => hn
      | cons hd _ ih =>
          intro hbound n o hn
          refine ih (fun hroots d hd => hbound hroots d (List.mem_cons_of_mem _ hd))
            (hn.declare hd fun hroots => hbound hroots _ (List.mem_cons_self ..))
    exact hfold hdeclared hbound respelled_empty
  have hfold : ∀ {ds es : List Declaration}, Forall₂ (Declaration.Respelled σ) ds es →
      (σ.roots = true → ∀ d ∈ ds, ∀ b ∈ bindingsOf d, b.1 ∉ standardRoots) →
        ∀ {n o : Names}, n.Respelled σ o → (σ.roots = true → n.affordsAliases ds = true) →
          (ds.foldl Names.addAlias n).Respelled σ (es.foldl Names.addAlias o) := by
    intro ds es hds
    induction hds with
    | nil => exact fun _ _ _ hn _ => hn
    | cons hd _ ih =>
        intro hbound n o hn hspare
        have hboth := fun hroots => Bool.and_eq_true_iff.mp (hspare hroots)
        refine ih (fun hroots d hd => hbound hroots d (List.mem_cons_of_mem _ hd))
          (hn.addAlias hd (fun hroots => hbound hroots _ (List.mem_cons_self ..))
            fun hroots => (hboth hroots).1) fun hroots => (hboth hroots).2
  exact hfold hdeclared hbound hnames hspare

end Names

end CapabilityGate
