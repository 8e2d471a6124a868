import CapabilityGate.Proofs.Audit.GlobReading
import CapabilityGate.Proofs.Audit.ItemOrder
import CapabilityGate.Proofs.Capability.PathParts
import CapabilityGate.Proofs.Resolution.Exhaustion

/-!
# Calls that use up their budget

Imports may lead in circles, so the lookup of a call is cut short when its budget is used up. Where
each name of a module is bound in one way, an audit does not let a call pass for that: what is found
of it is what every larger budget would find, or the call points into the program at nothing that is
declared, and every denylist rejects it. Where an item has the name of an import, though, a lookup
may be cut short at the import, and what is found looks like a call of the item.

## Main results

* `unresolved_of_spent_budget`: a call whose lookup is cut short, where that makes a difference, is
  rejected.
* `spent_budget_passes`: a call whose lookup is cut short at an import with the name of an item
  passes.
-/

namespace CapabilityGate

open Program Route Names

/-- A candidate that is **lost** makes a call site at which nothing is declared. -/
theorem unresolved_of_lost {p : SourceFile} {r : Route} (h : (ofProgram p).Lost r) (kind : CallKind)
    (at_ : Position) :
    ∃ site, siteOf kind at_ r = some site ∧ site.kind = kind ∧ site.line = at_.line ∧
      site.column = at_.column ∧ (Model.ofProgram p).isUnresolved site = true := by
  obtain ⟨rest, hnames, hmissing, hparts⟩ := h
  obtain ⟨front, last, rfl⟩ : ∃ front last, r = front ++ [last] := by
    rcases List.eq_nil_or_concat r with rfl | ⟨front, last, rfl⟩
    · exact absurd hnames (List.cons_ne_nil _ _).symm
    · exact ⟨front, last, List.concat_eq_append⟩
  cases front with
  | nil =>
      obtain ⟨-, rfl⟩ := List.cons.inj hnames
      exact Bool.noConfusion hmissing
  | cons root front =>
      obtain ⟨hroot, rfl⟩ := List.cons.inj hnames
      have hfront : splitPath (Route.type (root :: front)).path =
          "crate" :: front.map Step.name := by
        have hpath : (Route.type (root :: front)).path =
            normalPath (joinPath ("crate" :: front.map Step.name)) := by
          rw [← hroot]
          rfl
        have hcrate : isPart "crate" = true ∧ ("crate" == "") = false ∧
            standardName "crate" = "crate" := by decide
        rw [hpath, splitPath_normalPath_joinPath (List.cons_ne_nil _ _)]
        · rw [List.dropWhile_cons, hcrate.2.1]
          simp [hcrate.2.2]
        · intro name hname
          rcases List.mem_cons.mp hname with rfl | hname
          · exact hcrate.1
          · exact hparts name (by
              rw [List.append_eq, List.map_append]
              exact List.mem_append_left _ hname)
      refine ⟨⟨Route.type (root :: front), last.name, kind, at_.line, at_.column⟩, ?_, rfl, rfl, rfl,
        ?_⟩
      · rw [siteOf, split?_concat_eq (List.cons_ne_nil _ _)]
        rfl
      · rw [Model.isUnresolved, hfront]
        rw [List.append_eq, List.map_append] at hmissing
        exact hmissing

/-- **A lookup that runs out of its budget fails closed**: when a larger budget would find other
paths for a call, one of the call sites of the call points into the program at nothing that is
declared, so that every denylist with anything in it rejects the program. Each name of a module is
to be bound in one way. -/
theorem unresolved_of_spent_budget {p : SourceFile} {place : Place} {callee : Expr}
    {args : List Expr} {at_ : Position} {path : Path} {extra : Nat}
    (hcall : p.Holds place (.expr (.call callee args))) (hcallee : callee.bare = .path at_ path)
    (horderly : (ofProgram p).isOrderly = true)
    (hspent : namesOf ((ofProgram p).candidatesAt place ((ofProgram p).routeAt place path)) ≠
      namesOf ((ofProgram p).candidatesWithin (lookupBudget + extra) place.module
        ((ofProgram p).routeAt place path) ((ofProgram p).ownerAt place)).1) :
    ∃ site ∈ (Model.ofProgram p).sites,
      site.kind = .path ∧ site.line = at_.line ∧ site.column = at_.column ∧
        (Model.ofProgram p).isUnresolved site = true ∧
        ∀ denylist, denylist ≠ [] →
          (AuditReport.ofProgram p denylist).verdict.rejects = true := by
  have hn : (ofProgram p).Orderly := orderly_of_isOrderly (nested_ofProgram p) horderly
  have hparts : Route.InParts ((ofProgram p).routeAt place path) := by
    intro step hstep
    have hname : step.name ∈ path.names := by
      rw [← (ofProgram p).map_name_routeAt place path]
      exact List.mem_map_of_mem hstep
    exact isPart_of_isWord (isWord_of_mem_names hname)
  rcases candidates_failsClosed hn place.module hparts ((ofProgram p).ownerAt place) extra with
    ⟨r, hr, hlost⟩ | hsame
  · obtain ⟨site, hsite, hkind, hline, hcolumn, hunresolved⟩ := unresolved_of_lost hlost .path at_
    have hmem := mem_sites_of_candidate (mem_mentions_of_call hcall hcallee) hr hsite
    refine ⟨site, hmem, hkind, hline, hcolumn, hunresolved, fun denylist hne => ?_⟩
    rw [AuditReport.ofProgram, Model.verdict_withoutRepeats]
    exact Model.rejects_iff.mpr ⟨hne, site, hmem, Or.inr hunresolved⟩
  · exact absurd hsame hspent

/-- The import of a name of the program under another name. -/
def importAs (name alias_ : Word) : Item :=
  .use [] false (.under ⟨"crate", Eq.refl true⟩ (.rename name alias_))

/-- The tree of `use crate::b as a;`, `use crate::a as b;` and `fn f() { a::x(); }`, with more
items behind the imports. -/
def circle (items : List Item) : SourceFile :=
  ⟨[], importAs ⟨"b", Eq.refl true⟩ ⟨"a", Eq.refl true⟩ ::
    importAs ⟨"a", Eq.refl true⟩ ⟨"b", Eq.refl true⟩ :: items ++
    [functionOf [callOf [⟨"a", Eq.refl true⟩, ⟨"x", Eq.refl true⟩]]]⟩

/-- The lookup of `a::x` goes round in the circle until its budget is used up, and one lookup more
would stop at another name, so the call is rejected. -/
theorem unresolved_in_circle :
    (circle []).Holds ⟨[], none⟩ (callOf [⟨"a", Eq.refl true⟩, ⟨"x", Eq.refl true⟩]) ∧
      (ofProgram (circle [])).isOrderly = true ∧
      namesOf ((ofProgram (circle [])).candidatesAt ⟨[], none⟩ (ofNames ["a", "x"])) ≠
        namesOf ((ofProgram (circle [])).candidatesWithin (lookupBudget + 1) []
          (ofNames ["a", "x"]) none).1 ∧
      ∀ denylist, denylist ≠ [] →
        (AuditReport.ofProgram (circle []) denylist).verdict.rejects = true := by
  have hholds : (circle []).Holds ⟨[], none⟩
      (callOf [⟨"a", Eq.refl true⟩, ⟨"x", Eq.refl true⟩]) :=
    ⟨.item (functionOf [callOf [⟨"a", Eq.refl true⟩, ⟨"x", Eq.refl true⟩]]), by simp [circle,
      SourceFile.parts], .inside (List.mem_cons_self ..) .here⟩
  have horderly : (ofProgram (circle [])).isOrderly = true := by decide
  have hspent : namesOf ((ofProgram (circle [])).candidatesAt ⟨[], none⟩ (ofNames ["a", "x"])) ≠
      namesOf ((ofProgram (circle [])).candidatesWithin (lookupBudget + 1) []
        (ofNames ["a", "x"]) none).1 := by decide +kernel
  have hroute : (ofProgram (circle [])).routeAt ⟨[], none⟩
      (pathOf [⟨"a", Eq.refl true⟩, ⟨"x", Eq.refl true⟩]) = ofNames ["a", "x"] := by
    simp [routeAt, routeOf, pathOf, Path.segments, stepsOf, ofNames, plainStep]
  obtain ⟨site, -, -, -, -, -, hrejects⟩ :=
    unresolved_of_spent_budget hholds rfl horderly (hroute ▸ hspent)
  exact ⟨hholds, horderly, hspent, hrejects⟩

/-- **A lookup that is cut short can pass for a call of an item**: with `fn a() {}` in the circle,
the lookup of `a::x` uses up its budget and more, but the call site that is left of it names the
item `a`, and the audit passes. -/
theorem spent_budget_passes :
    ((ofProgram (circle [.declaration .function ⟨"a", Eq.refl true⟩ []])).candidatesWithin
        (lookupBudget + 1) [] (ofNames ["a", "x"]) none).2 = 0 ∧
      (∀ site ∈ (Model.ofProgram (circle [.declaration .function ⟨"a", Eq.refl true⟩ []])).sites,
        (Model.ofProgram (circle [.declaration .function ⟨"a", Eq.refl true⟩ []])).isUnresolved
          site = false) ∧
      (AuditReport.ofProgram (circle [.declaration .function ⟨"a", Eq.refl true⟩ []])
        [⟨.ofPath "std::fs", none⟩]).verdict.rejects = false := by
  decide +kernel

end CapabilityGate
