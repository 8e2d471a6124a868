import CapabilityGate.Audit.Verdict
import CapabilityGate.Proofs.Capability.PathText
import CapabilityGate.Proofs.Program.Walk
import CapabilityGate.Proofs.Resolution.Reexport

/-!
# Calls that an audit cannot miss

A call that names an item of the standard library, in full or through re-exports, makes a call
site with the full name of that item. A program with a call site that a denied descriptor covers
is rejected, whatever else it does.

## Main results

* `Model.rejects_of_covers`: a covered call site makes the audit reject the program.
* `site_of_standard_call`: the call site of a call by a path with a standard root.
* `site_of_reexported_call`: the call site of a call through a chain of re-exports.
-/

namespace CapabilityGate

open Program Route

/-! ### Verdicts -/

namespace Model

/-- A finding is always a reason to reject. -/
theorem rejects_of_finding {m : Model} {denied : List Descriptor} {site : CallSite} {v : Verdict}
    (h : m.finding? denied site = some v) : v.rejects = true := by
  rw [finding?] at h
  split at h
  · obtain rfl := Option.some.inj h
    rfl
  · split at h
    · obtain rfl := Option.some.inj h
      rfl
    · exact absurd h (by simp)

/-- A program with a call site that a denied descriptor covers **is rejected**. -/
theorem rejects_of_covers {m : Model} {denylist : List Descriptor} {d : Descriptor}
    {site : CallSite} (hsite : site ∈ m.sites) (hd : d ∈ denylist)
    (hcovers : d.canonical.covers site = true) : (m.verdict denylist).rejects = true := by
  have hfinding : ∃ v, m.finding? (denylist.map Descriptor.canonical) site = some v := by
    have hsome : ((denylist.map Descriptor.canonical).find? (·.covers site)).isSome = true := by
      rw [List.find?_isSome]
      exact ⟨d.canonical, List.mem_map_of_mem hd, hcovers⟩
    obtain ⟨e, he⟩ := Option.isSome_iff_exists.mp hsome
    exact ⟨.violation site e, by rw [finding?, he]⟩
  have hempty : denylist.isEmpty = false := by
    cases denylist with
    | nil => exact absurd hd List.not_mem_nil
    | cons e rest => rfl
  obtain ⟨v, hv⟩ := hfinding
  have hfirst :
      (m.sites.findSome? (m.finding? (denylist.map Descriptor.canonical))).isSome = true := by
    rw [List.findSome?_isSome_iff]
    exact ⟨site, hsite, by rw [hv]; rfl⟩
  obtain ⟨w, hw⟩ := Option.isSome_iff_exists.mp hfirst
  obtain ⟨other, -, hother⟩ := List.exists_of_findSome?_eq_some hw
  rw [verdict, if_neg (by simp [hempty]), hw]
  exact rejects_of_finding hother

end Model

/-! ### Call sites of mentions -/

namespace Names

/-- The call sites of a mention are **in a row** among those of all mentions. -/
theorem exists_infix_sitesOfAll (n : Names) {m : Place × Mention} {ms : List (Place × Mention)}
    (hm : m ∈ ms) (bindings : Bindings) :
    ∃ before, n.sitesOf before m.1 m.2 <:+: n.sitesOfAll bindings ms := by
  induction ms generalizing bindings with
  | nil => exact absurd hm List.not_mem_nil
  | cons first rest ih =>
      rw [sitesOfAll]
      rcases List.mem_cons.mp hm with rfl | hrest
      · exact ⟨bindings, (List.prefix_append ..).isInfix⟩
      · obtain ⟨before, hbefore⟩ := ih hrest (n.bindingsAfter bindings first.1 first.2)
        exact ⟨before, hbefore.trans (List.suffix_append ..).isInfix⟩

/-- The call sites of a mention that does not depend on bindings are **among those of all
mentions**. -/
theorem mem_sitesOfAll {n : Names} {place : Place} {m : Mention} {site : CallSite}
    (hsite : ∀ bindings, site ∈ n.sitesOf bindings place m) (bindings : Bindings)
    {ms : List (Place × Mention)} (hm : (place, m) ∈ ms) : site ∈ n.sitesOfAll bindings ms := by
  obtain ⟨before, hinfix⟩ := n.exists_infix_sitesOfAll hm bindings
  exact hinfix.subset (hsite before)

/-- The names of the steps that segments spell are the names of the segments. -/
theorem map_name_stepsOf (n : Names) (module : List String) (owner : Option TypeName)
    (segments : List Segment) :
    (n.stepsOf module owner segments).map Step.name = segments.map Segment.name := by
  induction segments with
  | nil => rw [stepsOf]; rfl
  | cons segment rest ih =>
      obtain ⟨word, style, args⟩ := segment
      rw [stepsOf, List.map_cons, List.map_cons, ih]
      rfl

/-- The names of the route of a path are the names of the path. -/
theorem map_name_routeAt (n : Names) (place : Place) (path : Path) :
    (n.routeAt place path).map Step.name = path.names :=
  map_name_stepsOf n place.module (n.ownerAt place) path.segments

end Names

/-- A route of two steps or more is an item in a container. -/
theorem Route.split?_concat (front : Route) (owner method : Step) :
    Route.split? (front ++ [owner] ++ [method]) =
      some (.apply (joinPath ((front ++ [owner]).map Step.name)) owner.args, method.name) := by
  simp [Route.split?, Route.path]

/-- A route of two steps or more **ends with two steps**. -/
theorem Route.exists_eq_concat {r : Route} (h : 2 ≤ r.length) :
    ∃ front owner method, r = front ++ [owner] ++ [method] := by
  rcases List.eq_nil_or_concat r with rfl | ⟨init, method, rfl⟩
  · exact absurd h (by decide)
  · rcases List.eq_nil_or_concat init with rfl | ⟨front, owner, rfl⟩
    · exact absurd h (Nat.not_succ_le_self 1)
    · exact ⟨front, owner, method, by rw [List.concat_eq_append, List.concat_eq_append]⟩

/-- A route of two steps or more is **no variable**, so there is a call site of every candidate. -/
theorem Names.sitesOfPath_of_two_le {n : Names} {place : Place} (kind : CallKind) (at_ : Position)
    {route : Route} (h : 2 ≤ route.length) :
    n.sitesOfPath place kind at_ route =
      (n.candidatesAt place route).filterMap (Names.siteOf kind at_) := by
  obtain ⟨first, rest, rfl⟩ := List.exists_cons_of_length_pos (Nat.lt_of_lt_of_le Nat.two_pos h)
  obtain ⟨second, rest, rfl⟩ := List.exists_cons_of_length_pos (Nat.lt_of_succ_lt_succ h)
  cases kind <;> rfl

/-- The call site of a called path with one candidate, which starts at the standard root: the
**path of the candidate** without its last name, and that name. -/
theorem site_of_candidate {n : Names} {place : Place} {path : Path} {candidate : Route}
    {names : List String} (at_ : Position)
    (hcandidate : n.candidatesAt place (n.routeAt place path) = [candidate])
    (hnames : candidate.map Step.name = "std" :: names) (hne : names ≠ [])
    (hwords : ∀ name ∈ names, isWord name = true) :
    ∃ site : CallSite,
      (∀ bindings, n.sitesOf bindings place (.path true at_ path) = [site]) ∧
      site.kind = .path ∧ site.line = at_.line ∧ site.column = at_.column ∧
      ∃ front, "std" :: names = front ++ [site.method] ∧
        site.container.path = joinPath front := by
  have hlength : 2 ≤ candidate.length := by
    rw [← List.length_map Step.name, hnames, List.length_cons]
    exact Nat.succ_le_succ (List.length_pos_iff.mpr hne)
  obtain ⟨front, owner, method, rfl⟩ := exists_eq_concat hlength
  rw [List.map_append, List.map_cons, List.map_nil] at hnames
  refine ⟨⟨.apply (joinPath ((front ++ [owner]).map Step.name)) owner.args, method.name, .path,
    at_.line, at_.column⟩, ?_, rfl, rfl, rfl, (front ++ [owner]).map Step.name, hnames.symm, ?_⟩
  · intro bindings
    have hsite : Names.siteOf .path at_ (front ++ [owner] ++ [method]) =
        some ⟨.apply (joinPath ((front ++ [owner]).map Step.name)) owner.args, method.name,
          .path, at_.line, at_.column⟩ := by
      rw [Names.siteOf, split?_concat]
      rfl
    simp only [Names.sitesOf, Names.kindOf, Names.sitesOfPath, hcandidate, if_true]
    exact List.filterMap_cons_some hsite
  · obtain ⟨more, hmore⟩ : ∃ more, (front ++ [owner]).map Step.name = "std" :: more := by
      cases hfront : (front ++ [owner]).map Step.name with
      | nil => simp at hfront
      | cons first more =>
          rw [hfront, List.cons_append, List.cons.injEq] at hnames
          exact ⟨more, by rw [hnames.1]⟩
    have hstd : isWord "std" = true := by decide
    have hall : ∀ name ∈ "std" :: more, isWord name = true := by
      intro name hname
      have hmem : name ∈ "std" :: names := by
        rw [← hnames, hmore]
        exact List.mem_append_left _ hname
      rcases List.mem_cons.mp hmem with rfl | hrest
      · exact hstd
      · exact hwords name hrest
    rw [hmore]
    exact normalPath_joinPath hall

/-! ### Small programs -/

/-- The path that words spell. -/
def pathOf (words : List Word) : Path :=
  .mk false (words.map fun word => .mk word .none [])

/-- The call of the function that words name, without arguments, at the start of a text. -/
def callOf (words : List Word) : Part :=
  .expr (.call (.path .start (pathOf words)) [])

/-- The function `f` with the statements `body`. -/
def functionOf (body : List Part) : Item :=
  .declaration .function ⟨"f", by decide⟩ body

/-- The tree of `fn f() { core::fs::read(); }`. -/
def fullCall : SourceFile :=
  ⟨[], [functionOf [callOf [⟨"core", by decide⟩, ⟨"fs", by decide⟩, ⟨"read", by decide⟩]]]⟩

/-- The tree of `mod m { pub use std::fs as inner; } use m::inner as n;` and
`fn f() { n::read(); }`. -/
def reexportedCall : SourceFile :=
  ⟨[], [.module ⟨"m", by decide⟩ [.item (.use [] false
      (.under ⟨"std", by decide⟩ (.rename ⟨"fs", by decide⟩ ⟨"inner", by decide⟩)))],
    .use [] false (.under ⟨"m", by decide⟩ (.rename ⟨"inner", by decide⟩ ⟨"n", by decide⟩)),
    functionOf [callOf [⟨"n", by decide⟩, ⟨"read", by decide⟩]]]⟩

/-! ### Calls by a path with a standard root -/

/-- The names of a path are words. -/
theorem isWord_of_mem_names {path : Path} {name : String} (h : name ∈ path.names) :
    isWord name = true := by
  obtain ⟨segment, -, rfl⟩ := List.mem_map.mp h
  exact segment.word.isWord

/-- A route that is read as it is written keeps its names but for the root. -/
theorem map_name_literal (first : Step) (rest : Route) (hroot : first.name ∈ standardRoots) :
    (Names.literal (first :: rest)).map Step.name = "std" :: rest.map Step.name := by
  simp only [standardRoots, List.mem_cons, List.not_mem_nil, or_false] at hroot
  rcases hroot with h | h | h <;> simp [Names.literal, h]

/-- **No call by a full path is missed.** A call whose callee is a path of at least two names that
starts at a standard root makes a call site, wherever a program holds the call, if the module
around it binds nothing to the root. The container of the site is the path without its last name
and with the root `std`, its method is the last name, and it stands where the path stands. A
denylist with a descriptor that covers the site makes the audit reject the program. -/
theorem site_of_standard_call {p : SourceFile} {place : Place} {callee : Expr} {args : List Expr}
    {at_ : Position} {path : Path} {root method : String} {middle : List String}
    (hcall : p.Holds place (.expr (.call callee args)))
    (hcallee : callee.bare = .path at_ path)
    (hnames : path.names = root :: middle ++ [method])
    (hroot : root ∈ standardRoots)
    (hfree : p.boundTo place.module root = []) :
    ∃ site ∈ (Model.ofProgram p).sites,
      site.kind = .path ∧ site.line = at_.line ∧ site.column = at_.column ∧
      site.container.path = joinPath ("std" :: middle) ∧ site.method = method ∧
      ∀ denylist : List Descriptor, ∀ d ∈ denylist, d.canonical.covers site = true →
        ((Model.ofProgram p).verdict denylist).rejects = true := by
  have hmention := mem_mentions_of_call hcall hcallee
  have hsteps := (Names.ofProgram p).map_name_routeAt place path
  rw [hnames] at hsteps
  obtain ⟨first, rest, hroute⟩ :
      ∃ first rest, (Names.ofProgram p).routeAt place path = first :: rest := by
    cases h : (Names.ofProgram p).routeAt place path with
    | nil => simp [h] at hsteps
    | cons first rest => exact ⟨first, rest, rfl⟩
  rw [hroute, List.map_cons, List.cons_append, List.cons.injEq] at hsteps
  obtain ⟨hfirst, hrest⟩ := hsteps
  subst hfirst
  have hcandidate : (Names.ofProgram p).candidatesAt place
      ((Names.ofProgram p).routeAt place path) = [Names.literal (first :: rest)] := by
    rw [hroute]
    exact candidates_of_standard hroot hfree _
  have hliteral := map_name_literal first rest hroot
  rw [hrest] at hliteral
  have hwords : ∀ name ∈ middle ++ [method], isWord name = true := by
    intro name hname
    have hmem : name ∈ path.names := by
      rw [hnames]
      exact List.mem_cons_of_mem _ hname
    exact isWord_of_mem_names hmem
  obtain ⟨site, hsite, hkind, hline, hcolumn, front, hfront, hpath⟩ :=
    site_of_candidate at_ hcandidate hliteral (by simp) hwords
  have hmem : site ∈ (Model.ofProgram p).sites :=
    Names.mem_sitesOfAll (fun bindings => by simp [hsite bindings]) [] hmention
  rw [← List.cons_append] at hfront
  obtain ⟨hinit, hmethod⟩ := List.append_inj' hfront rfl
  refine ⟨site, hmem, hkind, hline, hcolumn, by rw [hpath, hinit], ?_, ?_⟩
  · simpa using hmethod.symm
  · intro denylist d hd hcovers
    exact Model.rejects_of_covers hmem hd hcovers

/-- The call in `fn f() { core::fs::read(); }` is recorded as one of `read` in `std::fs`. -/
theorem site_of_full_read :
    fullCall.Holds ⟨[], none⟩
        (callOf [⟨"core", by decide⟩, ⟨"fs", by decide⟩, ⟨"read", by decide⟩]) ∧
      ∃ site ∈ (Model.ofProgram fullCall).sites,
        site.kind = .path ∧ site.line = 1 ∧ site.column = 1 ∧
        site.container.path = joinPath ["std", "fs"] ∧ site.method = "read" ∧
        ∀ denylist : List Descriptor, ∀ d ∈ denylist, d.canonical.covers site = true →
          ((Model.ofProgram fullCall).verdict denylist).rejects = true := by
  have hholds : fullCall.Holds ⟨[], none⟩
      (callOf [⟨"core", by decide⟩, ⟨"fs", by decide⟩, ⟨"read", by decide⟩]) :=
    ⟨_, List.mem_singleton_self _, .inside (List.mem_singleton_self _) .here⟩
  have hnames : (pathOf [⟨"core", by decide⟩, ⟨"fs", by decide⟩, ⟨"read", by decide⟩]).names =
      "core" :: ["fs"] ++ ["read"] := rfl
  exact ⟨hholds, site_of_standard_call hholds rfl hnames (by decide) rfl⟩

/-! ### Calls through re-exports -/

/-- The names of a target in place of the first step of a route. -/
theorem map_name_substitute (target : Route) (first : Step) (rest : Route) :
    (substitute target (first :: rest)).map Step.name =
      target.map Step.name ++ rest.map Step.name := by
  have hargs : ∀ (args : List TypeName) (r : Route),
      (r.withArgs args).map Step.name = r.map Step.name := by
    intro args r
    induction r using Route.withArgs.induct with
    | case1 => rfl
    | case2 step => rfl
    | case3 step rest hrest ih =>
        rw [Route.withArgs, List.map_cons, List.map_cons, ih]
        exact hrest
  rw [substitute, List.map_append]
  split
  · rfl
  · rw [hargs]

/-- **Re-exports hide no call.** A call by a path whose first name leads through re-exports to a
path with a standard root is recorded where the path stands, wherever a program holds the call.
The callee makes one call site: the path at the end of the chain, with the root `std` and followed
by the other names of the callee, is the container of the site and its method. A denylist with a
descriptor that covers the site makes the audit reject the program. -/
theorem site_of_reexported_call {p : SourceFile} {place : Place} {callee : Expr}
    {args : List Expr} {at_ : Position} {path : Path} {name root : String}
    {more rest : List String} {lookups : Nat}
    (hcall : p.Holds place (.expr (.call callee args)))
    (hcallee : callee.bare = .path at_ path)
    (hnames : path.names = name :: rest)
    (hleads : Leads p place.module name (root :: more) lookups)
    (hbudget : lookups ≤ Names.lookupBudget)
    (hlength : more ++ rest ≠ []) :
    (place, Mention.path true at_ path) ∈ p.mentions ∧
    ∃ site ∈ (Model.ofProgram p).sites,
      (∀ bindings, (Names.ofProgram p).sitesOf bindings place (.path true at_ path) = [site]) ∧
      site.kind = .path ∧ site.line = at_.line ∧ site.column = at_.column ∧
      (∃ front, "std" :: more ++ rest = front ++ [site.method] ∧
        site.container.path = joinPath front) ∧
      ∀ denylist : List Descriptor, ∀ d ∈ denylist, d.canonical.covers site = true →
        ((Model.ofProgram p).verdict denylist).rejects = true := by
  have hmention := mem_mentions_of_call hcall hcallee
  have hsteps := (Names.ofProgram p).map_name_routeAt place path
  rw [hnames] at hsteps
  obtain ⟨first, behind, hroute⟩ :
      ∃ first behind, (Names.ofProgram p).routeAt place path = first :: behind := by
    cases h : (Names.ofProgram p).routeAt place path with
    | nil => simp [h] at hsteps
    | cons first behind => exact ⟨first, behind, rfl⟩
  rw [hroute, List.map_cons, List.cons.injEq] at hsteps
  obtain ⟨hfirst, hbehind⟩ := hsteps
  obtain ⟨firstName, firstArgs⟩ := first
  obtain rfl : firstName = name := hfirst
  obtain ⟨_, _, hpath, hroot, hmore⟩ := hleads.exists_root
  obtain ⟨rfl, rfl⟩ := List.cons.inj hpath
  have hcandidate : (Names.ofProgram p).candidatesAt place
      ((Names.ofProgram p).routeAt place path) =
        [substitute (Names.literal (ofNames (root :: more))) (⟨firstName, firstArgs⟩ :: behind)] :=
    by
      rw [hroute]
      exact candidates_of_leads hleads hbudget firstArgs behind _
  have hcandidateNames :
      (substitute (Names.literal (ofNames (root :: more))) (⟨firstName, firstArgs⟩ :: behind)).map
        Step.name = "std" :: (more ++ rest) := by
    have hplain : (ofNames more).map Step.name = more := by
      simp [ofNames, plainStep, Function.comp_def]
    have hliteral : (Names.literal (ofNames (root :: more))).map Step.name = "std" :: more := by
      have hkept := map_name_literal (plainStep root) (ofNames more) hroot
      rwa [hplain] at hkept
    rw [map_name_substitute, hliteral, hbehind, List.cons_append]
  have hwords : ∀ n ∈ more ++ rest, isWord n = true := by
    intro n hn
    rcases List.mem_append.mp hn with hn | hn
    · exact hmore n hn
    · have hmem : n ∈ path.names := by
        rw [hnames]
        exact List.mem_cons_of_mem _ hn
      exact isWord_of_mem_names hmem
  obtain ⟨site, hsite, hkind, hline, hcolumn, hfront⟩ :=
    site_of_candidate at_ hcandidate hcandidateNames hlength hwords
  have hmem : site ∈ (Model.ofProgram p).sites :=
    Names.mem_sitesOfAll (fun bindings => by simp [hsite bindings]) [] hmention
  exact ⟨hmention, site, hmem, hsite, hkind, hline, hcolumn, hfront,
    fun denylist d hd hcovers => Model.rejects_of_covers hmem hd hcovers⟩

/-- The call in `reexportedCall` is recorded as one of `read` in `std::fs`. -/
theorem site_of_reexported_read :
    Leads reexportedCall [] "n" ["std", "fs"] 4 ∧
      (⟨[], none⟩, Mention.path true .start (pathOf [⟨"n", by decide⟩, ⟨"read", by decide⟩])) ∈
        reexportedCall.mentions ∧
      ∃ site ∈ (Model.ofProgram reexportedCall).sites,
        (∀ bindings, (Names.ofProgram reexportedCall).sitesOf bindings ⟨[], none⟩
          (.path true .start (pathOf [⟨"n", by decide⟩, ⟨"read", by decide⟩])) = [site]) ∧
        site.kind = .path ∧ site.line = 1 ∧ site.column = 1 ∧
        (∃ front, ["std", "fs", "read"] = front ++ [site.method] ∧
          site.container.path = joinPath front) ∧
        ∀ denylist : List Descriptor, ∀ d ∈ denylist, d.canonical.covers site = true →
          ((Model.ofProgram reexportedCall).verdict denylist).rejects = true := by
  have hholds : reexportedCall.Holds ⟨[], none⟩
      (callOf [⟨"n", by decide⟩, ⟨"read", by decide⟩]) :=
    ⟨_, List.mem_of_getElem? (i := 2) rfl, .inside (List.mem_singleton_self _) .here⟩
  have hinner : Leads reexportedCall ["m"] "inner" ["std", "fs"] 2 :=
    .standard (by decide) rfl (by decide) rfl
  have hleads : Leads reexportedCall [] "n" ["std", "fs"] 4 :=
    .through (by decide) rfl (.child (.into (by decide) rfl .here)) hinner
  exact ⟨hleads, site_of_reexported_call hholds rfl rfl hleads (by decide) (by decide)⟩

/-- The tree of `use std::fs::super;` and `fn f() { super::remove(); }`. -/
def wordImport : SourceFile :=
  ⟨[], [.use [] false (.under ⟨"std", by decide⟩
      (.under ⟨"fs", by decide⟩ (.name ⟨"super", by decide⟩))),
    functionOf [callOf [⟨"super", by decide⟩, ⟨"remove", by decide⟩]]]⟩

/-- The tree of `fn f() { m!({ use std::fs as n; n::read() }); }`. -/
def macroImport : SourceFile :=
  ⟨[], [functionOf [.invoke (.mk ["m"] false [] (.list [.compound .block
    [.item (.use [] false
      (.under ⟨"std", by decide⟩ (.rename ⟨"fs", by decide⟩ ⟨"n", by decide⟩))),
    callOf [⟨"n", by decide⟩, ⟨"read", by decide⟩]]]))]]⟩

/-- The tree of `use std::process::abort as n;` and `fn f() { g::<{ n() }>(); }`. -/
def argumentCall : SourceFile :=
  ⟨[], [.use [] false (.under ⟨"std", by decide⟩
      (.under ⟨"process", by decide⟩ (.rename ⟨"abort", by decide⟩ ⟨"n", by decide⟩))),
    functionOf [.expr (.call (.path .start (.mk false
      [.mk ⟨"g", by decide⟩ .angle [.group [callOf [⟨"n", by decide⟩]]]])) [])]]⟩

/-- Names are **not followed everywhere**: not one that is a word for a module, since the word
comes first; not one that is imported among the arguments of a macro; and not in the generic
arguments of a path that is an expression, whose calls are not looked for. -/
theorem call_sites_not_followed :
    (wordImport.Holds ⟨[], none⟩ (callOf [⟨"super", by decide⟩, ⟨"remove", by decide⟩]) ∧
      wordImport.boundTo [] "super" = [.import_ ["std", "fs", "super"]] ∧
      wordImport.boundTo [] "std" = [] ∧
      ∀ site ∈ (Model.ofProgram wordImport).sites, site.container.path ≠ "std::fs::super") ∧
    (macroImport.Holds ⟨[], none⟩ (.item (.use [] false
        (.under ⟨"std", by decide⟩ (.rename ⟨"fs", by decide⟩ ⟨"n", by decide⟩)))) ∧
      macroImport.Holds ⟨[], none⟩ (callOf [⟨"n", by decide⟩, ⟨"read", by decide⟩]) ∧
      ∀ site ∈ (Model.ofProgram macroImport).sites, site.container.path ≠ "std::fs") ∧
    (argumentCall.boundTo [] "n" = [.import_ ["std", "process", "abort"]] ∧
      argumentCall.boundTo [] "std" = [] ∧ (Model.ofProgram argumentCall).sites = []) := by
  refine ⟨⟨?_, rfl, rfl, by decide⟩, ⟨?_, ?_, by decide⟩, rfl, rfl, by decide⟩
  · exact ⟨_, List.mem_of_getElem? (i := 1) rfl, .inside (List.mem_singleton_self _) .here⟩
  · exact ⟨_, List.mem_singleton_self _, .inside (List.mem_singleton_self _)
      (.inside (List.mem_singleton_self _) (.inside (List.mem_of_getElem? (i := 0) rfl) .here))⟩
  · exact ⟨_, List.mem_singleton_self _, .inside (List.mem_singleton_self _)
      (.inside (List.mem_singleton_self _) (.inside (List.mem_of_getElem? (i := 1) rfl) .here))⟩

end CapabilityGate
