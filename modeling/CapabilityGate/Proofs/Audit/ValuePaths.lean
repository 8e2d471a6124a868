import CapabilityGate.Proofs.Audit.DescriptorMeaning
import CapabilityGate.Proofs.Audit.GlobReading
import CapabilityGate.Proofs.Resolution.Affordable
import CapabilityGate.Proofs.Resolution.LostRoutes

/-!
# Paths that stand as values

A path may be called, or stand where a value is expected. Both make the same call sites, one for
each meaning of the path, with one exception: a lone name that its module does not know is taken
for a local variable where it stands as a value. A name that only a glob import gives a meaning to
is not known in this sense, and neither are the words `Self`, `self` and `super`.

## Main definitions

* `SourceFile.HoldsValue`: an expression stands in a program as a value.
* `SourceFile.MakesSites`: the call sites that a program makes of an expression.
* `SourceFile.Overlooks`: a lone name with a meaning that its module does not know of.

## Main results

* `Overlooks.of_glob_or_word`: the names that are overlooked come from globs, or are words.
* `values_seen_as_calls`: paths that stand as values and paths that are called make the same call
  sites, but for the names that are overlooked.
* `globs_hide_values`: a function that is handed on and goes unnoticed.
-/

namespace CapabilityGate

open Program Route Names

/-! ### Values in a program -/

/-- A program holds an expression **as a value**: it stands directly in a part that is no call of
it. Attributes in front of an expression belong to it. -/
def Program.SourceFile.HoldsValue (p : SourceFile) (at_ : Place) (e : Expr) : Prop :=
  ∃ place outer, p.Holds place outer ∧ (at_, .expr e) ∈ outer.children place ∧
    (∀ args, outer ≠ .expr (.call e args)) ∧
    ∀ attributes, outer ≠ .expr (.attributed attributes e)

/-- What is mentioned in a value is mentioned in what **it stands directly in**, as no callee. -/
theorem infix_of_value {place between : Place} {outer : Part} {e : Expr} (called : Bool)
    (hchild : (between, .expr e) ∈ outer.children place)
    (hcall : ∀ args, outer ≠ .expr (.call e args))
    (hattributed : ∀ attributes, outer ≠ .expr (.attributed attributes e)) :
    Mentions.inExpr between false e <:+: Mentions.inPartAs place called outer := by
  obtain ⟨c, hinfix, hcalled⟩ := infix_inPartAs hchild called
  cases c with
  | false => exact hinfix
  | true =>
      obtain ⟨hcalls, rest, hchildren⟩ := hcalled rfl
      cases outer with
      | expr outer =>
          cases outer with
          | call callee args =>
              obtain ⟨⟨-, rfl⟩, -⟩ : (place = between ∧ callee = e) ∧ _ := by
                simpa [Part.children, placedExprs] using hchildren
              exact absurd rfl (hcall args)
          | attributed attributes inner =>
              obtain ⟨⟨-, rfl⟩, -⟩ : (place = between ∧ inner = e) ∧ _ := by
                simpa [Part.children] using hchildren
              exact absurd rfl (hattributed attributes)
          | _ => cases hcalls
      | _ => cases hcalls

/-- What is mentioned in a value behind its attributes is mentioned in the program as **no
callee**. -/
theorem subset_mentions_of_value {p : SourceFile} {place : Place} {e : Expr}
    (hvalue : p.HoldsValue place e) : Mentions.inExpr place false e.bare ⊆ p.mentions := by
  obtain ⟨around, outer, hholds, hchild, hcall, hattributed⟩ := hvalue
  obtain ⟨called, houter⟩ := subset_mentions_of_walks hholds.walks
  refine List.Subset.trans (inExpr_bare_subset place false e) ?_
  exact List.Subset.trans (infix_of_value called hchild hcall hattributed).subset houter

/-- What is mentioned in a callee behind its attributes is mentioned in the program **as a
callee**. -/
theorem subset_mentions_of_callee {p : SourceFile} {place : Place} {callee : Expr}
    {args : List Expr} (hcall : p.Holds place (.expr (.call callee args))) :
    Mentions.inExpr place true callee.bare ⊆ p.mentions := by
  obtain ⟨called, houter⟩ := subset_mentions_of_walks hcall.walks
  refine List.Subset.trans (inExpr_bare_subset place true callee) ?_
  refine List.Subset.trans ?_ houter
  change _ ⊆ Mentions.inExpr place called (.call callee args)
  rw [Mentions.inExpr]
  exact List.subset_append_left _ _

/-! ### Call sites of a path -/

/-- What a call site names, **whatever its kind**: the item and its container. -/
def CallSite.target (s : CallSite) : TypeName × String :=
  (s.container, s.method)

/-- Two expressions are **the same path**, below a type perhaps, which may be written at two
places. -/
inductive SamePath : Expr → Expr → Prop
  /-- A path without a type in front. -/
  | plain (at_ other : Position) (path : Path) : SamePath (.path at_ path) (.path other path)
  /-- A path below a type. -/
  | qualified (at_ other : Position) (owner : Ty) (position : Nat) (path : Path) :
      SamePath (.qualified at_ owner position path) (.qualified other owner position path)

/-- A program **makes these call sites** of an expression, called or not: they stand in a row among
those of the program, whatever is bound where the expression stands. -/
structure Program.SourceFile.MakesSites (p : SourceFile) (place : Place) (called : Bool) (e : Expr)
    (sites : List CallSite) : Prop where
  /-- What is mentioned in the expression is mentioned in the program. -/
  mentioned : Mentions.inExpr place called e ⊆ p.mentions
  /-- These are its call sites. -/
  steady : ∀ bindings,
    (ofProgram p).sitesOfAll bindings (Mentions.inExpr place called e) = sites
  /-- They are call sites of the program. -/
  among : sites <:+: (Model.ofProgram p).sites

/-- An expression that is one mention makes **the call sites of the mention**, if these do not
depend on bindings. -/
theorem makesSites_of_steady {p : SourceFile} {place : Place} {called : Bool} {e : Expr}
    {m : Mention} {sites : List CallSite}
    (hmention : Mentions.inExpr place called e = [(place, m)])
    (hmentioned : Mentions.inExpr place called e ⊆ p.mentions)
    (hsites : ∀ bindings, (ofProgram p).sitesOf bindings place m = sites) :
    p.MakesSites place called e sites := by
  refine ⟨hmentioned, fun bindings => ?_, ?_⟩
  · rw [hmention, sitesOfAll, sitesOfAll, hsites, List.append_nil]
  · rw [hmention] at hmentioned
    obtain ⟨before, hinfix⟩ := (ofProgram p).exists_infix_sitesOfAll
      (hmentioned (List.mem_singleton_self _)) []
    rw [hsites] at hinfix
    exact hinfix

/-- What the call sites of candidates name depends **neither on their kind nor on where they
stand**. -/
theorem map_target_siteOf (kind : CallKind) (at_ : Position) (candidates : List Route) :
    (candidates.filterMap (siteOf kind at_)).map CallSite.target =
      candidates.filterMap split? := by
  rw [List.map_filterMap]
  refine congrArg (List.filterMap · candidates) (funext fun r => ?_)
  rw [siteOf, Option.map_map]
  exact Option.map_id_apply

/-- What the call sites of a path below a type name depends on neither as well. -/
theorem map_target_sitesOfQualified (n : Names) (place : Place) (kind other : CallKind)
    (at_ behind : Position) (owner : Ty) (position : Nat) (path : Path) :
    (n.sitesOfQualified place kind at_ owner position path).map CallSite.target =
      (n.sitesOfQualified place other behind owner position path).map CallSite.target := by
  rw [sitesOfQualified, sitesOfQualified]
  cases path.segments.getLast? with
  | none => rfl
  | some last =>
      simp only [List.map_append, List.map_map]
      rfl

/-- Some candidate is an item in a container when one of them has **two steps**. -/
theorem filterMap_split?_ne_nil {candidates : List Route} :
    candidates.filterMap split? ≠ [] ↔ ∃ r ∈ candidates, 2 ≤ r.length := by
  have hsplit : ∀ r : Route, split? r ≠ none ↔ 2 ≤ r.length := by
    intro r
    constructor
    · intro h
      rw [split?] at h
      split at h
      next hreverse =>
        rw [← List.length_reverse, hreverse]
        simp
      next => exact absurd rfl h
    · intro h
      obtain ⟨front, owner, method, rfl⟩ := exists_eq_concat h
      rw [split?_concat]
      exact Option.some_ne_none _
  simp [← hsplit]

/-! ### Paths that are seen alike -/

variable {p q : SourceFile} {place : Place} {path : Path}

/-- A program **overlooks** a path that stands as a value: it is a lone name that neither the
prelude nor the module around it knows, and yet it may mean an item in a container. -/
structure Program.SourceFile.Overlooks (p : SourceFile) (place : Place) (path : Path) : Prop where
  /-- It is one name, which nothing in the module and nothing in the prelude is called. -/
  unknown : ∃ name, path.names = [name] ∧ prelude? name = none ∧ p.boundTo place.module name = []
  /-- One of the things that it may mean has a container. -/
  meant : ∃ r ∈ (ofProgram p).candidatesAt place ((ofProgram p).routeAt place path), 2 ≤ r.length

/-- A path that stands as a value is taken for a variable when it is **one name that is known
neither in the prelude nor in its module**. -/
theorem isVariable_routeAt :
    (ofProgram p).isVariable place.module .reference ((ofProgram p).routeAt place path) = true ↔
      ∃ name, path.names = [name] ∧ prelude? name = none ∧
        p.boundTo place.module name = [] := by
  rw [← (ofProgram p).map_name_routeAt place path]
  match (ofProgram p).routeAt place path with
  | [] => simp [isVariable]
  | [step] =>
      have hdeclares : ((ofProgram p).scopeAt place.module).declares step.name = true ↔
          p.boundTo place.module step.name ≠ [] := declares_ofProgram_iff
      simp only [isVariable, knows_eq_scopeAt, Bool.not_eq_true', Bool.or_eq_false_iff,
        Option.isSome_eq_false_iff, Option.isNone_iff_eq_none, List.map_cons, List.map_nil,
        List.cons.injEq, and_true, exists_eq_left']
      rw [← Bool.not_eq_true, hdeclares, not_not]
  | first :: second :: rest => simp [isVariable]

/-- The call sites of a path that stands as a value name what those of the called path name,
**unless the path is overlooked**. -/
theorem map_target_sitesOfPath_iff (at_ other : Position) :
    ((ofProgram p).sitesOfPath place .reference at_ ((ofProgram p).routeAt place path)).map
          CallSite.target =
        ((ofProgram p).sitesOfPath place .path other ((ofProgram p).routeAt place path)).map
          CallSite.target ↔
      ¬ p.Overlooks place path := by
  have hcalled : (ofProgram p).isVariable place.module .path ((ofProgram p).routeAt place path) =
      false := rfl
  rw [sitesOfPath_eq, sitesOfPath_eq, hcalled, if_neg Bool.false_ne_true, map_target_siteOf]
  by_cases hvariable :
      (ofProgram p).isVariable place.module .reference ((ofProgram p).routeAt place path) = true
  · rw [if_pos hvariable, List.map_nil]
    constructor
    · intro hnil hoverlooks
      exact filterMap_split?_ne_nil.mpr hoverlooks.meant hnil.symm
    · intro hseen
      by_contra hne
      refine hseen ⟨isVariable_routeAt.mp hvariable, filterMap_split?_ne_nil.mp ?_⟩
      exact fun hnil => hne hnil.symm
  · rw [if_neg hvariable, map_target_siteOf]
    refine iff_of_true rfl fun hoverlooks => hvariable ?_
    exact isVariable_routeAt.mpr hoverlooks.unknown

/-- What is overlooked is what **a glob** offers, or one of the words `self`, `super` and `Self`. -/
theorem Overlooks.of_glob_or_word (h : p.Overlooks place path) :
    p.globsIn place.module ≠ [] ∨ path.names ∈ [["self"], ["super"], ["Self"]] := by
  obtain ⟨⟨name, hname, hprelude, hfree⟩, r, hr, hlength⟩ := h
  refine or_iff_not_imp_left.mpr fun hglobs => ?_
  rw [not_not] at hglobs
  have hsteps := (ofProgram p).map_name_routeAt place path
  rw [hname, List.map_eq_singleton_iff] at hsteps
  obtain ⟨step, hroute, rfl⟩ := hsteps
  rw [hroute, candidatesAt] at hr
  rw [hname]
  by_cases hword : step.name ∈ pathWords
  · simp only [pathWords, List.mem_cons, List.not_mem_nil, or_false] at hword
    rcases hword with hcrate | hself | hsuper | htype
    · have hroot : (ofProgram p).candidates place.module [step] ((ofProgram p).ownerAt place) =
          [inModule [] []] := by
        have hbudget : lookupBudget = 511 + 1 := rfl
        rw [candidates, candidatesWithin, hbudget, lookup_written, writtenRule_succ, writtenPaid,
          hcrate]
        rfl
      rw [hroot] at hr
      obtain rfl := List.mem_singleton.mp hr
      exact absurd hlength (by decide)
    · simp [hself]
    · simp [hsuper]
    · simp [htype]
  · rw [candidates_of_unbound hword hfree hglobs, outside] at hr
    simp only [hprelude, literal, List.mem_singleton] at hr
    rw [hr] at hlength
    split at hlength <;> exact absurd hlength (Nat.not_succ_le_self 1)

/-- **A path is seen alike where it is called and where it stands as a value**, in one program or
in two with the same declarations: what its call sites name is the same, unless it is a name that
the program overlooks, which comes from a glob or is one of three words. -/
theorem values_seen_as_calls {e callee : Expr} {args : List Expr}
    (hdeclarations : q.declarations = p.declarations) (hvalue : p.HoldsValue place e)
    (hcall : q.Holds place (.expr (.call callee args))) (hsame : SamePath e.bare callee.bare) :
    ∃ sites called, p.MakesSites place false e.bare sites ∧
      q.MakesSites place true callee.bare called ∧
      (sites.map CallSite.target = called.map CallSite.target ↔
        ∀ at_ path, e.bare = .path at_ path → ¬ p.Overlooks place path) ∧
      ∀ path, p.Overlooks place path →
        p.globsIn place.module ≠ [] ∨ path.names ∈ [["self"], ["super"], ["Self"]] := by
  have hnames : ofProgram q = ofProgram p := by
    rw [ofProgram, ofProgram, hdeclarations]
  have hmentioned := subset_mentions_of_value hvalue
  have hcallee := subset_mentions_of_callee hcall
  generalize e.bare = value at hsame hmentioned ⊢
  generalize callee.bare = called at hsame hcallee ⊢
  cases hsame with
  | plain at_ other path =>
      refine ⟨_, _, makesSites_of_steady rfl hmentioned fun _ => rfl,
        makesSites_of_steady rfl hcallee fun _ => rfl, ?_,
        fun _ => Overlooks.of_glob_or_word⟩
      rw [hnames]
      refine (map_target_sitesOfPath_iff at_ other).trans ?_
      simp
  | qualified at_ other owner position path =>
      refine ⟨_, _, makesSites_of_steady rfl hmentioned fun _ => rfl,
        makesSites_of_steady rfl hcallee fun _ => rfl, ?_,
        fun _ => Overlooks.of_glob_or_word⟩
      rw [hnames]
      refine iff_of_true ?_ (fun _ _ h => Expr.noConfusion h)
      exact map_target_sitesOfQualified _ place .reference .path at_ other owner position path

/-! ### Programs with a path that stands as a value -/

/-- A name alone, at the start of a text. -/
def nameOf (word : Word) : Expr :=
  .path .start (pathOf [word])

/-- The statement that gives the name `g` to what a word names. -/
def letOf (word : Word) : Part :=
  .binding [] (.bind ⟨"g", Eq.refl true⟩ []) [nameOf word]

/-- The tree of `use std::fs::read as n;` and `fn f() { let g = n; n(); }`. -/
def importedValue : SourceFile :=
  ⟨[], [renamed ⟨"std", Eq.refl true⟩ ⟨"fs", Eq.refl true⟩ ⟨"read", Eq.refl true⟩
      ⟨"n", Eq.refl true⟩,
    functionOf [letOf ⟨"n", Eq.refl true⟩, callOf [⟨"n", Eq.refl true⟩]]]⟩

/-- In `importedValue` the name that is handed on is seen as it is where it is called. -/
theorem imported_value_seen :
    ∃ sites called,
      importedValue.MakesSites ⟨[], none⟩ false (nameOf ⟨"n", Eq.refl true⟩) sites ∧
      importedValue.MakesSites ⟨[], none⟩ true (nameOf ⟨"n", Eq.refl true⟩) called ∧
      (sites.map CallSite.target = called.map CallSite.target ↔
        ∀ at_ path, nameOf ⟨"n", Eq.refl true⟩ = .path at_ path →
          ¬ importedValue.Overlooks ⟨[], none⟩ path) ∧
      ∀ path, importedValue.Overlooks ⟨[], none⟩ path →
        importedValue.globsIn [] ≠ [] ∨ path.names ∈ [["self"], ["super"], ["Self"]] := by
  have hlet : importedValue.Holds ⟨[], none⟩ (letOf ⟨"n", Eq.refl true⟩) :=
    ⟨_, List.mem_of_getElem? (i := 1) rfl, .inside (List.mem_of_getElem? (i := 0) rfl) .here⟩
  have hcall : importedValue.Holds ⟨[], none⟩ (callOf [⟨"n", Eq.refl true⟩]) :=
    ⟨_, List.mem_of_getElem? (i := 1) rfl, .inside (List.mem_of_getElem? (i := 1) rfl) .here⟩
  have hvalue : importedValue.HoldsValue ⟨[], none⟩ (nameOf ⟨"n", Eq.refl true⟩) :=
    ⟨⟨[], none⟩, letOf ⟨"n", Eq.refl true⟩, hlet, List.mem_of_getElem? (i := 1) rfl,
      fun _ => nofun, fun _ => nofun⟩
  exact values_seen_as_calls rfl hvalue hcall (.plain .start .start (pathOf [⟨"n", Eq.refl true⟩]))

/-- The tree of `use std::fs::*;` and `fn f() { read(); }`. -/
def globbedCall : SourceFile :=
  ⟨[], [globAt [⟨"std", Eq.refl true⟩, ⟨"fs", Eq.refl true⟩],
    functionOf [callOf [⟨"read", Eq.refl true⟩]]]⟩

/-- The tree of `use std::fs::*;` and `fn f() { let g = read; }`. -/
def globbedValue : SourceFile :=
  ⟨[], [globAt [⟨"std", Eq.refl true⟩, ⟨"fs", Eq.refl true⟩],
    functionOf [letOf ⟨"read", Eq.refl true⟩]]⟩

/-- **A name from a glob goes unnoticed where it stands as a value**: its call in `globbedCall` is
one of `std::fs::read`, and where `globbedValue` hands it on there is no call site, so this program
passes where `std::fs` is denied. -/
theorem globs_hide_values :
    globbedValue.declarations = globbedCall.declarations ∧
      globbedCall.Holds ⟨[], none⟩ (callOf [⟨"read", Eq.refl true⟩]) ∧
      globbedValue.HoldsValue ⟨[], none⟩ (nameOf ⟨"read", Eq.refl true⟩) ∧
      (Model.ofProgram globbedCall).sites = [⟨.mk "std::fs" [], "read", .path, 1, 1⟩] ∧
      (Model.ofProgram globbedValue).sites = [] ∧
      ((Model.ofProgram globbedValue).verdict [⟨.ofPath "std::fs", none⟩]).rejects = false := by
  refine ⟨rfl, ?_, ?_, ?_, ?_, ?_⟩
  · exact ⟨_, List.mem_of_getElem? (i := 1) rfl, .inside (List.mem_singleton_self _) .here⟩
  · have hlet : globbedValue.Holds ⟨[], none⟩ (letOf ⟨"read", Eq.refl true⟩) :=
      ⟨_, List.mem_of_getElem? (i := 1) rfl, .inside (List.mem_singleton_self _) .here⟩
    exact ⟨⟨[], none⟩, letOf ⟨"read", Eq.refl true⟩, hlet, List.mem_of_getElem? (i := 1) rfl,
      fun _ => nofun, fun _ => nofun⟩
  all_goals decide +kernel

end CapabilityGate
