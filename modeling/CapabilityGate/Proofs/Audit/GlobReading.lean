import CapabilityGate.Proofs.Audit.GlobalPath
import CapabilityGate.Proofs.Resolution.Budget
import CapabilityGate.Proofs.Resolution.ModulePath

/-!
# Calls through globs

A name that its module does not bind may come from any of the globs in the module, so all their
readings are candidates of a path that starts with it, whatever the other globs offer and however
many lookups they take, as long as some of the budget is left. The names of the prelude are never
looked for in the globs.

## Main definitions

* `OnlyGlobs`: a name that nothing but a glob can give a meaning to.

## Main results

* `sites_of_glob_reading`: the call sites that a call of such a name makes through the globs of
  its module.
* `globs_behind_prelude`: calls of functions that a glob offers and that go unnoticed.
-/

namespace CapabilityGate

open Program Route Names

/-- **Only globs** can give the name a meaning in a module: the module does not bind it, and it is
no primitive type, no root of paths and no name of the prelude. -/
structure OnlyGlobs (p : SourceFile) (module : List String) (name : String) : Prop where
  /-- The module does not bind the name. -/
  free : p.boundTo module name = []
  /-- The name is no primitive type. -/
  primitive : name ∉ primitives
  /-- The name is no root of paths that lead to no external crate. -/
  root : name ∉ pathRoots
  /-- The name is not known everywhere. -/
  prelude : prelude? name = none

/-- The words for a module are roots of paths. -/
theorem OnlyGlobs.not_mem_pathWords {p : SourceFile} {module : List String} {name : String}
    (h : OnlyGlobs p module name) : name ∉ pathWords := by
  have hroots : ∀ word ∈ pathWords, word ∈ pathRoots := by decide
  exact fun hmem => h.root (hroots name hmem)

/-! ### Readings through one glob -/

section Rules

variable {n : Names} {l : Lookup} {module : List String} {first : Step} {rest : Route}
  {most left : Nat}

/-- What the globs of a module offer under a name that nothing else declares is **among the
candidates**, and nothing else is paid for. -/
theorem mem_undeclared (n : Names) (l : Lookup) (module : List String)
    (hprimitive : first.name ∉ primitives) (hroot : first.name ∉ pathRoots) (rest : Route)
    (left : Nat) :
    (n.undeclared l module first rest left).2 =
        (n.throughGlobs l module (first :: rest) left).2 ∧
      ∀ r ∈ (n.throughGlobs l module (first :: rest) left).1,
        r ∈ (n.undeclared l module first rest left).1 := by
  have hlooked : (primitives.contains first.name || pathRoots.contains first.name) = false := by
    simpa using ⟨hprimitive, hroot⟩
  simp only [undeclared, hlooked, Bool.false_eq_true, if_false, bind, StateT.bind]
  -- the reading as it is written stands before the others or behind them
  cases !rest.isEmpty && startsLower first.name with
  | true => exact ⟨rfl, fun r hr => List.mem_cons_of_mem _ hr⟩
  | false => exact ⟨rfl, fun r hr => List.mem_append_left _ hr⟩

/-- The candidates of a route through one glob of a module. -/
def throughOneGlob (n : Names) (l : Lookup) (module : List String) (route glob : Route) :
    Paid (List Route) := do
  let aboves ← l.written module glob none none
  return (← aboves.mapM (n.throughGlob l route)).flatten

/-- One glob is looked through with a larger budget **as with a smaller one** that lasts. -/
theorem throughOneGlob_extends {m : Lookup} {extra : Nat} (h : Lookup.Extends most extra l m)
    {route : Route} (glob : Route) :
    Paid.Extends most extra (throughOneGlob n l module route glob)
      (throughOneGlob n m module route glob) :=
  h.of_asks (n.throughTarget_asks module route glob)

/-- What one of the globs of a module offers is **among what all of them offer**, with a part of
the budget. -/
theorem mem_throughGlobs (h : Lookup.Extends most 0 l l) {glob : Route}
    (hglob : glob ∈ (n.scopeAt module).globs) (route : Route) (hleft : left ≤ most) :
    ∃ before ≤ left,
      (n.throughGlobs l module route left).2 ≤ (throughOneGlob n l module route glob before).2 ∧
      ∀ r ∈ (throughOneGlob n l module route glob before).1,
        r ∈ (n.throughGlobs l module route left).1 := by
  have hscope : n.scope? module = some (n.scopeAt module) := by
    refine scope?_eq_some_scopeAt fun hempty => ?_
    rw [hempty] at hglob
    exact absurd hglob List.not_mem_nil
  have hglobs : n.throughGlobs l module route left =
      ((((n.scopeAt module).globs.mapM (throughOneGlob n l module route)) left).1.flatten,
        (((n.scopeAt module).globs.mapM (throughOneGlob n l module route)) left).2) := by
    simp only [throughGlobs, hscope]
    rfl
  obtain ⟨before, hbefore, hmem, hspare⟩ :=
    Paid.Extends.mem_mapM (throughOneGlob_extends h) hglob hleft
  rw [hglobs]
  exact ⟨before, hbefore, hspare, fun r hr => List.mem_flatten.mpr ⟨_, hmem, hr⟩⟩

/-- A glob with one meaning offers what is found **through that meaning**. -/
theorem throughOneGlob_eq {glob above route : Route} {left' : Nat}
    (habove : l.written module glob none none left = ([above], left')) :
    throughOneGlob n l module route glob left = n.throughGlob l route above left' := by
  simp only [throughOneGlob, bind, StateT.bind, habove, List.mapM_cons, List.mapM_nil]
  exact Prod.ext (List.append_nil _) rfl

end Rules

/-! ### What globs offer -/

variable {p : SourceFile} {module : List String} {first : Step} {rest : Route}
  {owner : Option TypeName}

/-- A lookup leaves no more than it is given, and needs no more to find the same. -/
theorem lookup_steady (n : Names) (depth : Nat) :
    Lookup.Extends depth 0 (n.lookup depth) (n.lookup depth) :=
  n.lookup_extends (Nat.le_refl depth) (Nat.le_refl depth)

/-- A name that only globs can give a meaning to is looked for **in the globs**: what one of them
offers is among its candidates, and if any of the budget is left of them, so it was of this
glob. -/
theorem mem_candidates_of_glob (h : OnlyGlobs p module first.name) {glob : Route}
    (hglob : glob ∈ p.globsIn module)
    (hspare : 0 < ((ofProgram p).candidatesWithin lookupBudget module (first :: rest) owner).2) :
    ∃ left ≤ 510,
      0 < (throughOneGlob (ofProgram p) ((ofProgram p).lookup (510 + 1)) module (first :: rest) glob
        (left + 1)).2 ∧
      ∀ r ∈ (throughOneGlob (ofProgram p) ((ofProgram p).lookup (510 + 1)) module (first :: rest)
          glob (left + 1)).1,
        r ∈ (ofProgram p).candidates module (first :: rest) owner := by
  obtain ⟨himport, hmodule, hitem⟩ := unbound_ofProgram h.free
  have hundeclared : (ofProgram p).candidatesWithin lookupBudget module (first :: rest) owner =
      (ofProgram p).undeclared ((ofProgram p).lookup (510 + 1)) module first rest 511 := by
    have hbudget : lookupBudget = 510 + 1 + 1 := rfl
    rw [scopeAt] at himport hmodule hitem
    rw [candidatesWithin, hbudget, lookup_written, writtenRule_name h.not_mem_pathWords]
    simp only [byName, himport, ite_self, hmodule, hitem, h.prelude, Bool.false_eq_true, if_false]
  have hsteady := lookup_steady (ofProgram p) (510 + 1)
  obtain ⟨hsame, hmem⟩ := mem_undeclared (ofProgram p) ((ofProgram p).lookup (510 + 1)) module
    h.primitive h.root rest 511
  rw [hundeclared, hsame] at hspare
  rw [← globs_ofProgram] at hglob
  obtain ⟨before, hbefore, hleft, hfound⟩ :=
    mem_throughGlobs hsteady hglob (first :: rest) (Nat.le_refl 511)
  have hpositive := Nat.lt_of_lt_of_le hspare hleft
  have hshrinks : (throughOneGlob (ofProgram p) ((ofProgram p).lookup (510 + 1)) module
      (first :: rest) glob before).2 ≤ before :=
    (throughOneGlob_extends hsteady glob before hbefore).1
  obtain ⟨left, rfl⟩ : ∃ left, before = left + 1 := ⟨before - 1, by omega⟩
  refine ⟨left, Nat.le_of_succ_le_succ hbefore, hpositive, fun r hr => ?_⟩
  rw [candidates, hundeclared]
  exact hmem r (hfound r hr)

/-- A glob of a module of the standard library offers **every name**. -/
theorem mem_candidates_of_standard_glob (h : OnlyGlobs p module first.name) {root : String}
    {more : List String} (hglob : ofNames (root :: more) ∈ p.globsIn module)
    (hroot : root ∈ standardRoots) (hfree : p.boundTo module root = [])
    (hspare : 0 < ((ofProgram p).candidatesWithin lookupBudget module (first :: rest) owner).2) :
    ofNames ("std" :: more) ++ first :: rest ∈
      (ofProgram p).candidates module (first :: rest) owner := by
  obtain ⟨left, -, -, hfound⟩ := mem_candidates_of_glob h hglob hspare
  have htarget := written_standard (plainStep root) (ofNames more) none none 510 left hroot hfree
  have hliteral : literal (plainStep root :: ofNames more) = ofNames ("std" :: more) :=
    literal_ofNames hroot
  have hroute : ofNames (root :: more) = plainStep root :: ofNames more := rfl
  rw [hliteral, ← hroute] at htarget
  refine hfound _ ?_
  rw [throughOneGlob_eq htarget]
  exact List.mem_singleton_self _

/-- A declared module that names lead down to from the root is **the module they name**. -/
theorem module?_inModule {named : List String} (hdown : LeadsDown p [] named) :
    (ofProgram p).module? (inModule named []) = some named := by
  have hroot : ((ofProgram p).scope? []).isSome = true :=
    (isSome_scope?_ofProgram p []).mpr (Or.inl rfl)
  have hscope := isSome_scope?_of_leadsDown hdown hroot
  have hnames : (ofNames named ++ []).map Step.name = named := by
    simp [ofNames, plainStep, Function.comp_def]
  rw [List.nil_append] at hscope
  rw [inModule, List.cons_append, module?, hnames, hscope]
  rfl

/-- What a module declares is **found in it**, whether the budget lasts or not. -/
theorem isSome_member_of_bound {named : List String} (hbound : p.boundTo named first.name ≠ [])
    (rest : Route) (depth left : Nat) :
    (((ofProgram p).lookup (depth + 1)).member named (first :: rest) (left + 1)).1.isSome =
      true := by
  have hdeclares := declares_ofProgram_iff.mpr hbound
  have hscope : (ofProgram p).scope? named = some ((ofProgram p).scopeAt named) := by
    refine scope?_eq_some_scopeAt fun hempty => ?_
    rw [hempty] at hdeclares
    exact Bool.noConfusion hdeclares
  rw [lookup_member]
  simp only [memberRule, Paid.spend, bind, StateT.bind, hscope]
  rw [Scope.declares] at hdeclares
  cases himport : ((ofProgram p).scopeAt named).import? first.name with
  | some target => rfl
  | none =>
      cases hmodule : ((ofProgram p).scopeAt named).modules.contains first.name with
      | true => rfl
      | false =>
          have hitem : ((ofProgram p).scopeAt named).items.contains first.name = true := by
            rwa [himport, hmodule, Bool.or_false] at hdeclares
          simp only [hitem]
          rfl

/-- A path in full into a declared module is **looked for in that module**. -/
theorem candidates_below {named : List String} (hdown : LeadsDown p [] named)
    (hlength : named.length ≤ 511) (hword : first.name ∉ pathWords) (module : List String)
    (rest : Route) (owner : Option TypeName) :
    (ofProgram p).candidates module (plainStep "crate" :: (ofNames named ++ first :: rest)) owner =
      (((ofProgram p).lookup (511 - named.length)).member named (first :: rest)
        (511 - named.length)).1.getD [inModule named (first :: rest)] := by
  obtain ⟨spare, hspare⟩ := Nat.exists_eq_add_of_le hlength
  have hbudget : lookupBudget = named.length + spare + 1 := by
    rw [← hspare]
    rfl
  have hroute : plainStep "crate" :: (ofNames named ++ first :: rest) =
      ofNames ["crate"] ++ (ofNames named ++ first :: rest) := rfl
  have hleft : 511 - named.length = spare := by omega
  rw [candidates, candidatesWithin, hbudget, lookup_written, hroute, writtenRule_starts .crate,
    hdown.below_append, hleft, List.nil_append]
  exact congrArg Prod.fst (below_name hword first.args)

/-- A glob of a module of the program offers **what is found in that module**, as it is by the
path in full. -/
theorem mem_candidates_of_module_glob (h : OnlyGlobs p module first.name) {named : List String}
    (hglob : ofNames ("crate" :: named) ∈ p.globsIn module) (hdown : LeadsDown p [] named)
    (hoffers : p.boundTo named first.name ≠ [] ∨
      (ofProgram p).candidates module (plainStep "crate" :: (ofNames named ++ first :: rest))
          owner ≠
        [inModule named (first :: rest)])
    (hspare : 0 < ((ofProgram p).candidatesWithin lookupBudget module (first :: rest) owner).2) :
    ∀ r ∈ (ofProgram p).candidates module
        (plainStep "crate" :: (ofNames named ++ first :: rest)) owner,
      r ∈ (ofProgram p).candidates module (first :: rest) owner := by
  obtain ⟨left, hleft, hpositive, hfound⟩ := mem_candidates_of_glob h hglob hspare
  have htarget : ((ofProgram p).lookup (510 + 1)).written module (ofNames ("crate" :: named)) none
      none (left + 1) = ([inModule named []], left - named.length) := by
    have hroute : ofNames ("crate" :: named) = ofNames ["crate"] ++ ofNames named := rfl
    rw [lookup_written, hroute, writtenRule_starts .crate, hdown.below_eq hleft, List.nil_append]
  have hglobbed : throughOneGlob (ofProgram p) ((ofProgram p).lookup (510 + 1)) module
      (first :: rest) (ofNames ("crate" :: named)) (left + 1) =
      ((((ofProgram p).lookup (510 + 1)).member named (first :: rest)
          (left - named.length)).1.getD [],
        (((ofProgram p).lookup (510 + 1)).member named (first :: rest)
          (left - named.length)).2) := by
    rw [throughOneGlob_eq htarget, throughGlob, module?_inModule hdown]
    rfl
  rw [hglobbed] at hpositive hfound
  -- the path in full is looked for in the same module, with more of the budget left
  obtain ⟨extra, hextra⟩ : ∃ extra, left - named.length + extra = 511 - named.length :=
    ⟨511 - named.length - (left - named.length), by omega⟩
  have hextends : Lookup.Extends (left - named.length) extra ((ofProgram p).lookup (510 + 1))
      ((ofProgram p).lookup (511 - named.length)) :=
    (ofProgram p).lookup_extends (by omega) (Nat.le_of_eq hextra)
  obtain ⟨hshrinks, hsame⟩ :=
    hextends.member named (first :: rest) (left - named.length) (Nat.le_refl _)
  have hmore := hsame hpositive
  rw [hextra] at hmore
  have hleft' : 0 < left - named.length := Nat.lt_of_lt_of_le hpositive hshrinks
  have hfull := candidates_below hdown (by omega) h.not_mem_pathWords module rest owner
  rw [hmore] at hfull
  rw [hfull] at hoffers ⊢
  cases hfound' : (((ofProgram p).lookup (510 + 1)).member named (first :: rest)
      (left - named.length)).1 with
  | some found =>
      rw [hfound'] at hfound
      exact hfound
  | none =>
      rw [hfound'] at hoffers
      rcases hoffers with hbound | hother
      · obtain ⟨before, hbefore⟩ : ∃ before, left - named.length = before + 1 :=
          ⟨left - named.length - 1, by omega⟩
        have hsome := isSome_member_of_bound hbound rest 510 before
        rw [← hbefore, hfound'] at hsome
        exact Bool.noConfusion hsome
      · exact absurd rfl hother

/-- The target of a glob is **made of words**. -/
theorem isWord_of_mem_globsIn {target : List String}
    (h : ofNames target ∈ p.globsIn module) : ∀ n ∈ target, isWord n = true := by
  obtain ⟨d, -, hd⟩ := List.mem_flatMap.mp h
  have hglob : ofNames target ∈ globsOf d := by
    split at hd
    · exact hd
    · exact absurd hd List.not_mem_nil
  rw [globsOf] at hglob
  split at hglob
  next global tree _ =>
    obtain ⟨leaf, hleaf, heq⟩ := List.mem_filterMap.mp hglob
    cases leaf with
    | name alias_ path => exact absurd heq (Option.some_ne_none _).symm
    | glob path =>
        have hinjective : Function.Injective plainStep := fun _ _ h => congrArg Step.name h
        obtain rfl : path = target := hinjective.list_map (Option.some.inj heq)
        exact isWord_of_imports (fun _ h => absurd h List.not_mem_nil) tree hleaf
  next => exact absurd hglob List.not_mem_nil

/-! ### Call sites through globs -/

/-- A path that is called makes a call site of **each of its candidates**. -/
theorem mem_sites_of_candidate {place : Place} {at_ : Position} {path : Path} {r : Route}
    {site : CallSite} (hmention : (place, Mention.path true at_ path) ∈ p.mentions)
    (hr : r ∈ (ofProgram p).candidatesAt place ((ofProgram p).routeAt place path))
    (hsite : siteOf .path at_ r = some site) : site ∈ (Model.ofProgram p).sites := by
  refine mem_sitesOfAll (fun bindings => ?_) [] hmention
  exact List.mem_filterMap.mpr ⟨r, hr, hsite⟩

/-- **What globs offer is not missed.** A call by a path that starts with a name only globs can
give a meaning to makes a call site of its reading through each glob of its module, if the lookup
of the path does not use up the budget. Through a glob of the standard library this is the path
behind the target of the glob. Through a glob of a declared module that has such a name, by a
declaration or from elsewhere, it is whatever the path in full stands for. -/
theorem sites_of_glob_reading {place : Place} {callee : Expr} {args : List Expr}
    {at_ : Position} {path : Path} {name : String} {behind : List String}
    (hcall : p.Holds place (.expr (.call callee args)))
    (hcallee : callee.bare = .path at_ path)
    (hnames : path.names = name :: behind)
    (honly : OnlyGlobs p place.module name)
    (hspare : 0 < ((ofProgram p).candidatesWithin lookupBudget place.module
      ((ofProgram p).routeAt place path) ((ofProgram p).ownerAt place)).2) :
    (∀ (root : String) (more middle : List String) (method : String),
      ofNames (root :: more) ∈ p.globsIn place.module → root ∈ standardRoots →
      p.boundTo place.module root = [] → more ++ path.names = middle ++ [method] →
      ∃ site ∈ (Model.ofProgram p).sites,
        site.kind = .path ∧ site.line = at_.line ∧ site.column = at_.column ∧
        site.container.path = joinPath ("std" :: middle) ∧ site.method = method) ∧
    ∀ named : List String,
      ofNames ("crate" :: named) ∈ p.globsIn place.module → LeadsDown p [] named →
      (p.boundTo named name ≠ [] ∨
        (ofProgram p).candidatesAt place
            (plainStep "crate" :: (ofNames named ++ (ofProgram p).routeAt place path)) ≠
          [inModule named ((ofProgram p).routeAt place path)]) →
      ∀ r ∈ (ofProgram p).candidatesAt place
          (plainStep "crate" :: (ofNames named ++ (ofProgram p).routeAt place path)),
        ∀ site, siteOf .path at_ r = some site → site ∈ (Model.ofProgram p).sites := by
  have hmention := mem_mentions_of_call hcall hcallee
  have hsteps := (ofProgram p).map_name_routeAt place path
  rw [hnames] at hsteps
  obtain ⟨first, rest, hroute, rfl, hrest⟩ := List.map_eq_cons_iff.mp hsteps
  rw [hroute] at hspare ⊢
  refine ⟨?_, ?_⟩
  · intro root more middle method hglob hroot hfree hpath
    have hcandidate := mem_candidates_of_standard_glob honly hglob hroot hfree hspare
    have hwords : ∀ n ∈ middle, isWord n = true := by
      intro n hn
      have hmem : n ∈ more ++ path.names := hpath ▸ List.mem_append_left _ hn
      rcases List.mem_append.mp hmem with hmore | hname
      · exact isWord_of_mem_globsIn hglob n (List.mem_cons_of_mem _ hmore)
      · exact isWord_of_mem_names hname
    have hcandidateNames : (ofNames ("std" :: more) ++ first :: rest).map Step.name =
        "std" :: middle ++ [method] := by
      have hplain : (ofNames more).map Step.name = more := by
        simp [ofNames, plainStep, Function.comp_def]
      have htarget : ofNames ("std" :: more) = plainStep "std" :: ofNames more := rfl
      rw [List.map_append, htarget, List.map_cons, hplain, List.map_cons, hrest, List.cons_append,
        ← hnames, hpath]
      rfl
    obtain ⟨types, hsite⟩ := siteOf_standard .path at_ hcandidateNames hwords
    have hmem := mem_sites_of_candidate hmention (hroute ▸ hcandidate) hsite
    exact ⟨_, hmem, rfl, rfl, rfl, rfl, rfl⟩
  · intro named hglob hdown hoffers r hr site hsite
    have hcandidate := mem_candidates_of_module_glob honly hglob hdown hoffers hspare r hr
    exact mem_sites_of_candidate hmention (hroute ▸ hcandidate) hsite

/-! ### Programs with globs -/

/-- The import of all that a path of words leads to. -/
def globAt : List Word → Item
  | words => .use [] false (words.foldr .under .glob)

/-- The import of what two words and a name lead to, under another name. -/
def renamed (root middle name alias_ : Word) : Item :=
  .use [] false (.under root (.under middle (.rename name alias_)))

/-- The tree of `mod m { pub use std::fs::read as load; }`, `use crate::m::*; use std::mem::*;` and
`fn f() { load(); }`. -/
def offeredCall : SourceFile :=
  ⟨[], [.module ⟨"m", Eq.refl true⟩ [.item (renamed ⟨"std", Eq.refl true⟩ ⟨"fs", Eq.refl true⟩
      ⟨"read", Eq.refl true⟩ ⟨"load", Eq.refl true⟩)],
    globAt [⟨"crate", Eq.refl true⟩, ⟨"m", Eq.refl true⟩],
    globAt [⟨"std", Eq.refl true⟩, ⟨"mem", Eq.refl true⟩],
    functionOf [callOf [⟨"load", Eq.refl true⟩]]]⟩

/-- The call in `offeredCall` makes call sites in `std::fs` and in `std::mem`. -/
theorem sites_of_offered_call :
    offeredCall.Holds ⟨[], none⟩ (callOf [⟨"load", Eq.refl true⟩]) ∧
      OnlyGlobs offeredCall [] "load" ∧ LeadsDown offeredCall [] ["m"] ∧
      (∃ site ∈ (Model.ofProgram offeredCall).sites,
        site.kind = .path ∧ site.line = 1 ∧ site.column = 1 ∧
        site.container.path = joinPath ["std", "mem"] ∧ site.method = "load") ∧
      ⟨.mk "std::fs" [], "read", .path, 1, 1⟩ ∈ (Model.ofProgram offeredCall).sites := by
  have hholds : offeredCall.Holds ⟨[], none⟩ (callOf [⟨"load", Eq.refl true⟩]) :=
    ⟨_, List.mem_of_getElem? (i := 3) rfl, .inside (List.mem_singleton_self _) .here⟩
  have honly : OnlyGlobs offeredCall [] "load" := ⟨rfl, by decide, by decide, by decide⟩
  have hdown : LeadsDown offeredCall [] ["m"] :=
    .into (by decide) ⟨List.mem_singleton_self _, fun b hb => Or.inl (List.mem_singleton.mp hb)⟩
      .here
  have hbound : offeredCall.boundTo ["m"] "load" ≠ [] := List.cons_ne_nil _ _
  obtain ⟨hstandard, hmodule⟩ := sites_of_glob_reading hholds rfl rfl honly (by decide)
  refine ⟨hholds, honly, hdown, ?_, ?_⟩
  · exact hstandard "std" ["mem"] ["mem"] "load" (by decide) (by decide) rfl rfl
  · exact hmodule ["m"] (by decide) hdown (Or.inl hbound) (ofNames ["std", "fs", "read"])
      (by decide) _ (by decide)

/-- The tree of `mod m { pub use std::process::exit as drop; }`, `use crate::m::*;` and
`fn f() { drop(); }`. -/
def preludeCall : SourceFile :=
  ⟨[], [.module ⟨"m", Eq.refl true⟩ [.item (renamed ⟨"std", Eq.refl true⟩
      ⟨"process", Eq.refl true⟩ ⟨"exit", Eq.refl true⟩ ⟨"drop", Eq.refl true⟩)],
    globAt [⟨"crate", Eq.refl true⟩, ⟨"m", Eq.refl true⟩],
    functionOf [callOf [⟨"drop", Eq.refl true⟩]]]⟩

/-- The tree of `mod m { pub use std::fs::read as load; }`, `use std::cmp::max as m;`,
`use crate::m::*;` and `fn f() { load(); }`. -/
def importedCall : SourceFile :=
  ⟨[], [.module ⟨"m", Eq.refl true⟩ [.item (renamed ⟨"std", Eq.refl true⟩ ⟨"fs", Eq.refl true⟩
      ⟨"read", Eq.refl true⟩ ⟨"load", Eq.refl true⟩)],
    renamed ⟨"std", Eq.refl true⟩ ⟨"cmp", Eq.refl true⟩ ⟨"max", Eq.refl true⟩ ⟨"m", Eq.refl true⟩,
    globAt [⟨"crate", Eq.refl true⟩, ⟨"m", Eq.refl true⟩],
    functionOf [callOf [⟨"load", Eq.refl true⟩]]]⟩

/-- **A name of the prelude hides what a glob offers under it**: the call in `preludeCall` is one
of `std::process::exit`, it is recorded as one of `std::mem::drop`, and it passes where
`std::process` is denied. A function that is imported under the name of a module hides what the
module offers: the call in `importedCall` is one of `std::fs::read`, and passes where `std::fs` is
denied. -/
theorem globs_behind_prelude :
    ((∀ module ∈ [[], ["m"]], ∀ root ∈ standardRoots, preludeCall.boundTo module root = []) ∧
      preludeCall.boundTo [] "drop" = [] ∧ "drop" ∉ primitives ∧ "drop" ∉ pathRoots ∧
      preludeCall.globsIn [] = [ofNames ["crate", "m"]] ∧
      preludeCall.boundTo ["m"] "drop" = [.import_ ["std", "process", "exit"]] ∧
      (ofProgram preludeCall).candidates [] (ofNames ["crate", "m", "drop"]) none =
        [ofNames ["std", "process", "exit"]] ∧
      0 < ((ofProgram preludeCall).candidatesWithin lookupBudget [] (ofNames ["drop"]) none).2 ∧
      (Model.ofProgram preludeCall).sites = [⟨.mk "std::mem" [], "drop", .path, 1, 1⟩] ∧
      ((Model.ofProgram preludeCall).verdict [⟨.ofPath "std::process", none⟩]).rejects = false) ∧
    (OnlyGlobs importedCall [] "load" ∧ importedCall.globsIn [] = [ofNames ["crate", "m"]] ∧
      importedCall.boundTo ["m"] "load" = [.import_ ["std", "fs", "read"]] ∧
      0 < ((ofProgram importedCall).candidatesWithin lookupBudget [] (ofNames ["load"]) none).2 ∧
      (Model.ofProgram importedCall).sites = [⟨.mk "std::cmp::max" [], "load", .path, 1, 1⟩] ∧
      ((Model.ofProgram importedCall).verdict [⟨.ofPath "std::fs", none⟩]).rejects = false) := by
  refine ⟨⟨by decide, rfl, by decide, by decide, by decide, rfl, ?_, ?_, ?_, ?_⟩,
    ⟨rfl, by decide, by decide, by decide⟩, by decide, rfl, ?_, ?_, ?_⟩
  all_goals decide +kernel

end CapabilityGate
