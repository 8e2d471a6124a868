import CapabilityGate.Proofs.Resolution.Budget
import CapabilityGate.Proofs.Resolution.Candidates

/-!
# Lookups come to an end

The rules for looking up call one another without a bound, so imports that lead in circles would
keep them going forever if nobody had to pay. Since every lookup is paid for before it asks for
others, it ends: it takes no more lookups than its budget, and as long as none of them is refused,
it takes the same ones and finds the same with every larger budget.

## Main definitions

* `Names.Ends`: an inquiry comes to its end, where the lookups that it asks for are made by their
  rules; it counts those that are granted and those that are refused.
* `Names.Settles`: what is known of an inquiry with some budget once it always ends.

## Main results

* `Names.Ends.lengthen`: an inquiry in which nothing is refused ends in the same way with more.
* `lookups_end`: the lookups of a path end, within their budget and with a candidate, and find the
  same with every larger budget if nothing was refused.
-/

namespace CapabilityGate

open Program Route Names

/-- What is done after a computation **goes on from what it left**. -/
theorem Paid.bind_of_eq {α β : Type} {c : Paid α} {f : α → Paid β} {budget left : Nat} {a : α}
    (h : c budget = (a, left)) : (c >>= f) budget = f a left := by
  have hboth : (c >>= f) budget = f (c budget).1 (c budget).2 := rfl
  rw [hboth, h]

/-- An inquiry **ends**, from a budget, with a result and with what is `left` of the budget, after
a number of lookups that were `granted` and a number that were `refused`. A lookup that it asks for
is made by the rule for it, whose own lookups are made in the same way: there is no bound on how
deep this goes. -/
inductive Names.Ends (n : Names) :
    {α : Type} → Inquiry α → (budget : Nat) → α → (left granted refused : Nat) → Prop
  /-- A result that is known costs nothing. -/
  | pure {α : Type} (a : α) (budget : Nat) : n.Ends (fun _ => Pure.pure a) budget a budget 0 0
  /-- A lookup is granted from a budget with something left. -/
  | granted (left : Nat) : n.Ends (fun _ => Paid.spend) (left + 1) true left 1 0
  /-- A lookup is refused without a budget. -/
  | refused : n.Ends (fun _ => Paid.spend) 0 false 0 0 1
  /-- One inquiry after another. -/
  | bind {α β : Type} {c : Inquiry α} {f : Lookup → α → Paid β} {a : α} {b : β}
      {budget left left' granted granted' refused refused' : Nat} :
      n.Ends c budget a left granted refused →
      n.Ends (fun l => f l a) left b left' granted' refused' →
      n.Ends (fun l => c l >>= f l) budget b left' (granted + granted') (refused + refused')
  /-- A route that is written in a module. -/
  | written {module : List String} {route : Route} {owner : Option TypeName}
      {skip : Option String} {found : List Route} {budget left granted refused : Nat} :
      n.Ends (fun l => n.writtenRule l module route owner skip) budget found left granted refused →
      n.Ends (fun l => l.written module route owner skip) budget found left granted refused
  /-- A route below a module. -/
  | member {module : List String} {route : Route} {found : Option (List Route)}
      {budget left granted refused : Nat} :
      n.Ends (fun l => n.memberRule l module route) budget found left granted refused →
      n.Ends (fun l => l.member module route) budget found left granted refused

namespace Names

variable {n : Names} {α β : Type} {most deep : Nat}

/-! ### What is known of an inquiry that ends -/

namespace Ends

variable {c : Inquiry α} {a : α} {budget left granted refused : Nat}

/-- **The budget is paid out** to the lookups that are granted. -/
theorem granted_add_left (h : n.Ends c budget a left granted refused) :
    granted + left = budget := by
  induction h with
  | pure a budget => exact Nat.zero_add budget
  | granted left => exact Nat.add_comm 1 left
  | refused => rfl
  | bind hfirst hnext ihfirst ihnext => omega
  | written hrule ih => exact ih
  | member hrule ih => exact ih

/-- An inquiry in which nothing is refused ends **in the same way with more**, which is left in
addition. -/
theorem lengthen (h : n.Ends c budget a left granted refused) (hnone : refused = 0)
    (extra : Nat) : n.Ends c (budget + extra) a (left + extra) granted 0 := by
  induction h with
  | pure a budget => exact .pure a (budget + extra)
  | granted left =>
      rw [Nat.add_right_comm]
      exact .granted (left + extra)
  | refused => exact absurd hnone Nat.one_ne_zero
  | bind hfirst hnext ihfirst ihnext =>
      obtain ⟨hfirst', hnext'⟩ := Nat.add_eq_zero_iff.mp hnone
      exact .bind (ihfirst hfirst') (ihnext hnext')
  | written hrule ih => exact .written (ih hnone)
  | member hrule ih => exact .member (ih hnone)

/-- An inquiry that ends finds what lookups find that **may go deep enough**. -/
theorem found_of_deep (h : n.Ends c budget a left granted refused) :
    ∃ deep, ∀ depth ≥ deep, c (n.lookup depth) budget = (a, left) := by
  induction h with
  | pure a budget => exact ⟨0, fun depth _ => rfl⟩
  | granted left =>
      exact ⟨0, fun depth _ => Prod.ext (decide_eq_true (Nat.succ_pos left)) rfl⟩
  | refused => exact ⟨0, fun depth _ => rfl⟩
  | bind hfirst hnext ihfirst ihnext =>
      obtain ⟨deep, hdeep⟩ := ihfirst
      obtain ⟨deep', hdeep'⟩ := ihnext
      refine ⟨max deep deep', fun depth hdepth => ?_⟩
      have hfound := hdeep depth (Nat.le_trans (Nat.le_max_left ..) hdepth)
      have hfound' := hdeep' depth (Nat.le_trans (Nat.le_max_right ..) hdepth)
      exact (Paid.bind_of_eq hfound).trans hfound'
  | written hrule ih =>
      obtain ⟨deep, hdeep⟩ := ih
      refine ⟨deep + 1, fun depth hdepth => ?_⟩
      obtain ⟨depth, rfl⟩ : ∃ d, depth = d + 1 := ⟨depth - 1, by omega⟩
      exact hdeep depth (Nat.le_of_succ_le_succ hdepth)
  | member hrule ih =>
      obtain ⟨deep, hdeep⟩ := ih
      refine ⟨deep + 1, fun depth hdepth => ?_⟩
      obtain ⟨depth, rfl⟩ : ∃ d, depth = d + 1 := ⟨depth - 1, by omega⟩
      exact hdeep depth (Nat.le_of_succ_le_succ hdepth)

/-- An inquiry ends in **one way only**. -/
theorem unique {a' : α} {left' granted' refused' : Nat}
    (h : n.Ends c budget a left granted refused)
    (h' : n.Ends c budget a' left' granted' refused') : a = a' ∧ left = left' := by
  obtain ⟨deep, hdeep⟩ := h.found_of_deep
  obtain ⟨deep', hdeep'⟩ := h'.found_of_deep
  have hsame : (a, left) = (a', left') :=
    (hdeep (max deep deep') (Nat.le_max_left ..)).symm.trans (hdeep' _ (Nat.le_max_right ..))
  exact Prod.mk.inj hsame

end Ends

/-! ### Inquiries that always end -/

/-- An inquiry **always ends** with a budget below `most`, and lookups that may go `deep` find what
it finds. -/
def AlwaysEnds (n : Names) (most deep : Nat) (c : Inquiry α) : Prop :=
  ∀ budget < most, ∃ a left granted refused, n.Ends c budget a left granted refused ∧
    ∀ depth ≥ deep, c (n.lookup depth) budget = (a, left)

namespace AlwaysEnds

/-- A result that is known is there. -/
theorem pure (a : α) : n.AlwaysEnds most deep fun _ => Pure.pure a :=
  fun budget _ => ⟨a, budget, 0, 0, .pure a budget, fun _ _ => rfl⟩

/-- Inquiries one after another end if each of them does. -/
theorem bind {c : Inquiry α} {f : Lookup → α → Paid β} (h : n.AlwaysEnds most deep c)
    (hf : ∀ a, n.AlwaysEnds most deep fun l => f l a) :
    n.AlwaysEnds most deep fun l => c l >>= f l := by
  intro budget hbudget
  obtain ⟨a, left, granted, refused, hfirst, hfound⟩ := h budget hbudget
  have hleft : left ≤ budget := hfirst.granted_add_left ▸ Nat.le_add_left left granted
  obtain ⟨b, left', granted', refused', hnext, hfound'⟩ :=
    hf a left (Nat.lt_of_le_of_lt hleft hbudget)
  refine ⟨b, left', _, _, .bind hfirst hnext, fun depth hdepth => ?_⟩
  exact (Paid.bind_of_eq (hfound depth hdepth)).trans (hfound' depth hdepth)

/-- An inquiry that is **paid for first** ends with one more to pay with. -/
theorem spend {f : Lookup → Bool → Paid α} {a : α}
    (h : n.AlwaysEnds most deep fun l => f l true) (hspent : ∀ l, f l false = Pure.pure a) :
    n.AlwaysEnds (most + 1) deep fun l => Paid.spend >>= f l := by
  intro budget hbudget
  cases budget with
  | zero =>
      have hcut : n.Ends (fun l => f l false) 0 a 0 0 0 := by
        simp only [hspent]
        exact .pure a 0
      refine ⟨a, 0, _, _, .bind .refused hcut, fun depth _ => ?_⟩
      exact congrFun (hspent (n.lookup depth)) 0
  | succ budget =>
      obtain ⟨b, left, granted, refused, hends, hfound⟩ :=
        h budget (Nat.lt_of_succ_lt_succ hbudget)
      refine ⟨b, left, _, _, .bind (.granted budget) hends, fun depth hdepth => ?_⟩
      exact hfound depth hdepth

end AlwaysEnds

/-- All lookups end with a budget below `most`. -/
structure LookupsEnd (n : Names) (most deep : Nat) : Prop where
  /-- Routes that are written in a module. -/
  written : ∀ module route owner skip,
    n.AlwaysEnds most deep fun l => l.written module route owner skip
  /-- Routes below a module. -/
  member : ∀ module route, n.AlwaysEnds most deep fun l => l.member module route

/-- Lookups end as inquiries, so **what is made of lookups** ends too. -/
theorem LookupsEnd.of_asks (h : n.LookupsEnd most deep) {c : Inquiry α} (hc : Asks c) :
    n.AlwaysEnds most deep c := by
  induction hc with
  | pure a => exact .pure a
  | written module route owner skip => exact h.written module route owner skip
  | member module route => exact h.member module route
  | bind hfirst hnext ihfirst ihnext => exact ihfirst.bind ihnext

/-- **The rule for written routes** ends with one more to pay with than the lookups that it asks. -/
theorem writtenRule_ends (h : n.LookupsEnd most deep) (module : List String) (route : Route)
    (owner : Option TypeName) (skip : Option String) :
    n.AlwaysEnds (most + 1) deep fun l => n.writtenRule l module route owner skip := by
  cases route with
  | nil => exact .pure _
  | cons first rest =>
      exact .spend (h.of_asks (n.writtenPaid_asks module first rest owner skip)) fun _ => rfl

/-- So does **the rule for routes below a module**. -/
theorem memberRule_ends (h : n.LookupsEnd most deep) (module : List String) (route : Route) :
    n.AlwaysEnds (most + 1) deep fun l => n.memberRule l module route := by
  cases route with
  | nil => exact .pure _
  | cons first rest =>
      simp only [memberRule_cons]
      exact .spend (h.of_asks (n.memberPaid_asks module first rest)) fun _ => rfl

/-- Lookups end with **one lookup more**: a rule pays before it asks for other lookups, so these
have less to pay with. -/
theorem LookupsEnd.succ (h : n.LookupsEnd most deep) : n.LookupsEnd (most + 1) (deep + 1) := by
  refine ⟨fun module route owner skip budget hbudget => ?_, fun module route budget hbudget => ?_⟩
  · obtain ⟨found, left, granted, refused, hrule, hfound⟩ :=
      writtenRule_ends h module route owner skip budget hbudget
    refine ⟨found, left, granted, refused, .written hrule, fun depth hdepth => ?_⟩
    obtain ⟨depth, rfl⟩ : ∃ d, depth = d + 1 := ⟨depth - 1, by omega⟩
    exact hfound depth (Nat.le_of_succ_le_succ hdepth)
  · obtain ⟨found, left, granted, refused, hrule, hfound⟩ :=
      memberRule_ends h module route budget hbudget
    refine ⟨found, left, granted, refused, .member hrule, fun depth hdepth => ?_⟩
    obtain ⟨depth, rfl⟩ : ∃ d, depth = d + 1 := ⟨depth - 1, by omega⟩
    exact hfound depth (Nat.le_of_succ_le_succ hdepth)

/-- **Every lookup ends**, and lookups that may go as deep as its budget find what it finds. -/
theorem lookupsEnd (n : Names) (most : Nat) : n.LookupsEnd (most + 1) most := by
  induction most with
  | zero =>
      have hnone : n.LookupsEnd 0 0 :=
        ⟨fun _ _ _ _ _ h => absurd h (Nat.not_lt_zero _),
          fun _ _ _ h => absurd h (Nat.not_lt_zero _)⟩
      -- with nothing to pay, lookups that may go nowhere find what those one level deep find
      refine ⟨fun module route owner skip budget hbudget => ?_,
        fun module route budget hbudget => ?_⟩
      · obtain ⟨found, left, granted, refused, hends, hfound⟩ :=
          hnone.succ.written module route owner skip budget hbudget
        obtain rfl := Nat.lt_one_iff.mp hbudget
        refine ⟨found, left, granted, refused, hends, fun depth _ => ?_⟩
        rw [← hfound (depth + 1) (Nat.le_add_left 1 depth)]
        exact (n.written_cut ..).trans (n.written_cut ..).symm
      · obtain ⟨found, left, granted, refused, hends, hfound⟩ :=
          hnone.succ.member module route budget hbudget
        obtain rfl := Nat.lt_one_iff.mp hbudget
        refine ⟨found, left, granted, refused, hends, fun depth _ => ?_⟩
        rw [← hfound (depth + 1) (Nat.le_add_left 1 depth)]
        exact (n.member_cut ..).trans (n.member_cut ..).symm
  | succ most ih => exact ih.succ

/-! ### What is settled of an inquiry -/

/-- What is **settled** of an inquiry with a budget. -/
structure Settles (n : Names) (good : α → Prop) (c : Inquiry α) (budget : Nat) : Prop where
  /-- It ends. -/
  ends : ∃ a left granted refused, n.Ends c budget a left granted refused
  /-- Its result is as it should be. -/
  good : ∀ a left granted refused, n.Ends c budget a left granted refused → good a
  /-- No more lookups are granted than the budget has. -/
  within : ∀ a left granted refused, n.Ends c budget a left granted refused → granted ≤ budget
  /-- Lookups that may go as deep as the budget find the result. -/
  found : ∀ a left granted refused, n.Ends c budget a left granted refused →
    ∀ depth ≥ budget, c (n.lookup depth) budget = (a, left)
  /-- If none was refused, they find the same with every larger budget. -/
  lasting : ∀ a left granted, n.Ends c budget a left granted 0 →
    ∀ extra, ∀ depth ≥ budget + extra,
      c (n.lookup depth) (budget + extra) = (a, left + extra)

/-- Much is settled once an inquiry **always ends** and finds what is good. -/
theorem Settles.of_alwaysEnds {good : α → Prop} {c : Inquiry α}
    (h : ∀ most, n.AlwaysEnds (most + 1) most c)
    (hgood : ∀ depth, Paid.Yields good (c (n.lookup depth))) (budget : Nat) :
    n.Settles good c budget := by
  -- there is only one end, so what is found at the end that is known is found at every end
  have hfound : ∀ budget a left granted refused, n.Ends c budget a left granted refused →
      ∀ depth ≥ budget, c (n.lookup depth) budget = (a, left) := by
    intro budget a left granted refused hends depth hdepth
    obtain ⟨a', left', granted', refused', hends', heq⟩ := h budget budget (Nat.lt_succ_self budget)
    obtain ⟨rfl, rfl⟩ := hends.unique hends'
    exact heq depth hdepth
  refine ⟨?_, ?_, ?_, hfound budget, ?_⟩
  · obtain ⟨a, left, granted, refused, hends, -⟩ := h budget budget (Nat.lt_succ_self budget)
    exact ⟨a, left, granted, refused, hends⟩
  · intro a left granted refused hends
    have heq := hfound budget a left granted refused hends budget (Nat.le_refl budget)
    have hresult := hgood budget budget
    rwa [heq] at hresult
  · intro a left granted refused hends
    exact hends.granted_add_left ▸ Nat.le_add_right granted left
  · intro a left granted hends extra depth hdepth
    exact hfound _ _ _ _ _ (hends.lengthen rfl extra) depth hdepth

end Names

/-! ### Lookups in a program -/

/-- **Lookups come to an end**, whatever a program declares and in whatever circles its imports,
globs and modules lead. A path takes no more lookups than its budget and has a candidate; so does
a path below a module or through an import. A module may have no such name, and its globs may offer
nothing. When no lookup was refused, every larger budget gives the same candidates in the same
order. -/
theorem lookups_end (ds aliases : List Declaration) (module : List String) (first : Step)
    (rest : Route) (budget : Nat) :
    let n := aliases.foldl Names.addAlias (Names.ofDeclarations ds)
    (∀ owner found left granted refused,
      n.Ends (fun l => l.written module (first :: rest) owner none) lookupBudget found left granted
        refused →
      n.candidates module (first :: rest) owner = found ∧ granted ≤ 512 ∧
        (refused = 0 → ∀ extra,
          (n.candidatesWithin (lookupBudget + extra) module (first :: rest) owner).1 = found)) ∧
    (∀ owner skip,
      n.Settles (· ≠ []) (fun l => l.written module (first :: rest) owner skip) budget) ∧
    n.Settles (· ≠ []) (fun l => below l module (first :: rest)) budget ∧
    n.Settles (· ≠ some []) (fun l => l.member module (first :: rest)) budget ∧
    (∀ name target, (n.scopeAt module).import? name = some target →
      n.Settles (· ≠ []) (fun l => throughImport l module name target (first :: rest)) budget) ∧
    n.Settles (fun _ => True) (fun l => n.throughGlobs l module (first :: rest)) budget := by
  intro n
  have hn : n.HasTargets := (HasTargets.ofDeclarations ds).foldl HasTargets.addAlias aliases
  have hwritten : ∀ owner skip budget,
      n.Settles (· ≠ []) (fun l => l.written module (first :: rest) owner skip) budget :=
    fun owner skip => .of_alwaysEnds (fun most => (n.lookupsEnd most).written _ _ _ _)
      fun depth => (lookup_fills hn depth).written _ _ _ _ (List.cons_ne_nil _ _)
  refine ⟨?path, fun owner skip => hwritten owner skip budget, ?below, ?member, ?imports, ?globs⟩
  case path =>
    intro owner found left granted refused hends
    have hsettled := hwritten owner none lookupBudget
    refine ⟨?_, hsettled.within _ _ _ _ hends, fun hnone extra => ?_⟩
    · exact congrArg Prod.fst (hsettled.found _ _ _ _ hends lookupBudget (Nat.le_refl _))
    · obtain rfl := hnone
      exact congrArg Prod.fst (hsettled.lasting _ _ _ hends extra _ (Nat.le_refl _))
  case below =>
    exact .of_alwaysEnds (fun most => (n.lookupsEnd most).of_asks (below_asks module _))
      (fun depth => below_fills (lookup_fills hn depth) module _) budget
  case member =>
    exact .of_alwaysEnds (fun most => (n.lookupsEnd most).member _ _)
      (fun depth => (lookup_fills hn depth).member module _) budget
  case imports =>
    intro name target htarget
    exact .of_alwaysEnds
      (fun most => (n.lookupsEnd most).of_asks (throughImport_asks module name target _))
      (fun depth => throughImport_fills (lookup_fills hn depth) module name
        (hn module name target htarget) _) budget
  case globs =>
    exact .of_alwaysEnds (fun most => (n.lookupsEnd most).of_asks (n.throughGlobs_asks module _))
      (fun _ _ => trivial) budget

/-- Two imports that **lead to each other** keep no lookup from coming to an end. The path `crate`
takes one lookup there, which is granted, so it means the same with every larger budget. -/
theorem lookups_end_in_circle :
    let ds : List Declaration :=
      [⟨[], .use false (.rename ⟨"b", Eq.refl true⟩ ⟨"a", Eq.refl true⟩)⟩,
        ⟨[], .use false (.rename ⟨"a", Eq.refl true⟩ ⟨"b", Eq.refl true⟩)⟩]
    let n := [].foldl Names.addAlias (Names.ofDeclarations ds)
    ((n.scopeAt []).import? "a" = some [⟨"b", []⟩] ∧ (n.scopeAt []).import? "b" = some [⟨"a", []⟩] ∧
      n.Settles (· ≠ []) (fun l => throughImport l [] "a" [⟨"b", []⟩] [⟨"a", []⟩, ⟨"f", []⟩])
        lookupBudget) ∧
    n.Ends (fun l => l.written [] [⟨"crate", []⟩] none none) lookupBudget [[⟨"crate", []⟩]] 511 1 0 ∧
      ∀ extra, (n.candidatesWithin (lookupBudget + extra) [] [⟨"crate", []⟩] none).1 =
        [[⟨"crate", []⟩]] := by
  intro ds n
  have himport : (n.scopeAt []).import? "a" = some [⟨"b", []⟩] := by decide
  have hends : n.Ends (fun l => l.written [] [⟨"crate", []⟩] none none) lookupBudget
      [[⟨"crate", []⟩]] 511 1 0 := by
    let found (paid : Bool) : Paid (List Route) :=
      Pure.pure [if paid then [⟨"crate", []⟩] else inModule [] [⟨"crate", []⟩]]
    have hrule : (fun l => n.writtenRule l [] [⟨"crate", []⟩] none none) =
        fun _ => Paid.spend >>= found :=
      funext fun l => congrArg (Paid.spend >>= ·) (funext fun paid => by cases paid <;> rfl)
    have hspent : n.Ends (fun _ => Paid.spend >>= found) (511 + 1) [[⟨"crate", []⟩]] 511 1 0 :=
      .bind (f := fun _ => found) (.granted 511) (.pure _ 511)
    exact .written (hrule ▸ hspent)
  obtain ⟨-, -, -, -, hcircle, -⟩ :=
    lookups_end ds [] [] ⟨"a", []⟩ [⟨"f", []⟩] lookupBudget
  obtain ⟨hpath, -⟩ := lookups_end ds [] [] ⟨"crate", []⟩ [] lookupBudget
  obtain ⟨-, -, hlasting⟩ := hpath none _ _ _ _ hends
  exact ⟨⟨himport, by decide, hcircle "a" _ himport⟩, hends, hlasting rfl⟩

end CapabilityGate
