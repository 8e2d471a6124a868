import CapabilityGate.Proofs.Resolution.Inquiries
import CapabilityGate.Proofs.Resolution.Reexport

/-!
# Budgets that last

The lookups of one path are paid for from one budget. What is left never grows, and as long as
anything is left at the end no lookup has gone without payment. So what is found then is found with
every larger budget too, and the rest of the larger budget is left in addition.

## Main definitions

* `Paid.Extends`: a computation does what another one does, given more to pay with.

## Main results

* `Names.lookup_extends`: a lookup that does not use up its budget finds the same with more.
-/

namespace CapabilityGate

open Route

/-! ### Computations with more to pay with -/

variable {α β : Type} {most extra : Nat}

/-- The second computation **extends** the first one when, up to a budget of `most`, the first one
leaves no more than it is given, and whenever it leaves anything the second one yields the same
from `extra` more, which it leaves too. -/
def Paid.Extends (most extra : Nat) (c d : Paid α) : Prop :=
  ∀ left ≤ most, (c left).2 ≤ left ∧
    (0 < (c left).2 → d (left + extra) = ((c left).1, (c left).2 + extra))

namespace Paid.Extends

/-- What costs nothing extends itself. -/
theorem pure (a : α) : Paid.Extends most extra (Pure.pure a) (Pure.pure a) :=
  fun left _ => ⟨Nat.le_refl left, fun _ => rfl⟩

/-- Computations one after another are extended one by one. -/
theorem bind {c d : Paid α} {f g : α → Paid β} (h : Paid.Extends most extra c d)
    (hfg : ∀ a, Paid.Extends most extra (f a) (g a)) :
    Paid.Extends most extra (c >>= f) (d >>= g) := by
  intro left hleft
  obtain ⟨hle, hsame⟩ := h left hleft
  obtain ⟨hle', hsame'⟩ := hfg (c left).1 (c left).2 (Nat.le_trans hle hleft)
  have hbind : (c >>= f) left = f (c left).1 (c left).2 := rfl
  rw [hbind]
  refine ⟨Nat.le_trans hle' hle, fun hspare => ?_⟩
  -- something is left after the first computation, since something is left after both
  have hfirst := hsame (Nat.lt_of_lt_of_le hspare hle')
  have hbind' : (d >>= g) (left + extra) = g (d (left + extra)).1 (d (left + extra)).2 := rfl
  rw [hbind', hfirst]
  exact hsame' hspare

/-- Computations for each member of a list are extended one by one. -/
theorem mapM {f g : α → Paid β} (h : ∀ a, Paid.Extends most extra (f a) (g a)) (xs : List α) :
    Paid.Extends most extra (xs.mapM f) (xs.mapM g) := by
  induction xs with
  | nil =>
      rw [List.mapM_nil, List.mapM_nil]
      exact pure []
  | cons x rest ih =>
      rw [List.mapM_cons, List.mapM_cons]
      exact (h x).bind fun _ => ih.bind fun _ => pure _

/-- What is computed for one member of a list is **among what is computed for all** of them, from a
part of the budget. -/
theorem mem_mapM {f g : α → Paid β} (h : ∀ a, Paid.Extends most extra (f a) (g a)) {x : α}
    {xs : List α} (hx : x ∈ xs) {left : Nat} (hleft : left ≤ most) :
    ∃ before ≤ left, (f x before).1 ∈ (xs.mapM f left).1 ∧
      (xs.mapM f left).2 ≤ (f x before).2 := by
  induction xs generalizing left with
  | nil => exact absurd hx List.not_mem_nil
  | cons y rest ih =>
      have hfirst := (h y left hleft).1
      have hmore : (f y left).2 ≤ most := Nat.le_trans hfirst hleft
      have hboth : (y :: rest).mapM f left =
          ((f y left).1 :: (rest.mapM f (f y left).2).1, (rest.mapM f (f y left).2).2) := by
        rw [List.mapM_cons]
        rfl
      rw [hboth]
      rcases List.mem_cons.mp hx with rfl | hx
      · exact ⟨left, Nat.le_refl left, List.mem_cons_self .., (mapM h rest _ hmore).1⟩
      · obtain ⟨before, hbefore, hmem, hle⟩ := ih hx hmore
        exact ⟨before, Nat.le_trans hbefore hfirst, List.mem_cons_of_mem _ hmem, hle⟩

/-- A computation that is **paid for first** is extended by one that is so too. -/
theorem spend {c d : Bool → Paid α} {a : α} (h : Paid.Extends most extra (c true) (d true))
    (hspent : c false = Pure.pure a) :
    Paid.Extends (most + 1) extra (Paid.spend >>= c) (Paid.spend >>= d) := by
  intro left hleft
  cases left with
  | zero =>
      have hzero : (Paid.spend >>= c) 0 = (a, 0) := congrFun hspent 0
      rw [hzero]
      exact ⟨Nat.le_refl 0, fun hspare => absurd hspare (Nat.lt_irrefl 0)⟩
  | succ left =>
      obtain ⟨hle, hsame⟩ := h left (Nat.le_of_succ_le_succ hleft)
      have hpaid : (Paid.spend >>= c) (left + 1) = c true left := rfl
      have hmore : left + 1 + extra = left + extra + 1 := by omega
      have hpaid' : (Paid.spend >>= d) (left + extra + 1) = d true (left + extra) := rfl
      rw [hpaid, hmore, hpaid']
      exact ⟨Nat.le_succ_of_le hle, hsame⟩

end Paid.Extends

/-- Ways of looking up **extend** others when each of them does. -/
structure Lookup.Extends (most extra : Nat) (l m : Lookup) : Prop where
  /-- Routes that are written in a module. -/
  written : ∀ module route owner skip,
    Paid.Extends most extra (l.written module route owner skip) (m.written module route owner skip)
  /-- Routes below a module. -/
  member : ∀ module route, Paid.Extends most extra (l.member module route) (m.member module route)

/-- **Inquiries that are made of lookups** are extended when the lookups are. -/
theorem Lookup.Extends.of_asks {l m : Lookup} (h : Lookup.Extends most extra l m) {c : Inquiry α}
    (hc : Asks c) : Paid.Extends most extra (c l) (c m) := by
  induction hc with
  | pure a => exact .pure a
  | written module route owner skip => exact h.written module route owner skip
  | member module route => exact h.member module route
  | bind hfirst hnext ihfirst ihnext => exact ihfirst.bind ihnext

namespace Names

variable {l m : Lookup} (n : Names)

section Rules

variable (h : Lookup.Extends most extra l m)

include h

/-- **The rule for written routes** finds the same with more to pay with if the lookups that it asks
for do, which have one less to pay with. -/
theorem writtenRule_extends (module : List String) (route : Route) (owner : Option TypeName)
    (skip : Option String) :
    Paid.Extends (most + 1) extra (n.writtenRule l module route owner skip)
      (n.writtenRule m module route owner skip) := by
  cases route with
  | nil => exact .pure _
  | cons first rest =>
      exact .spend (h.of_asks (n.writtenPaid_asks module first rest owner skip)) rfl

/-- So does **the rule for routes below a module**. -/
theorem memberRule_extends (module : List String) (route : Route) :
    Paid.Extends (most + 1) extra (n.memberRule l module route) (n.memberRule m module route) := by
  cases route with
  | nil => exact .pure _
  | cons first rest =>
      rw [memberRule_cons, memberRule_cons]
      exact .spend (h.of_asks (n.memberPaid_asks module first rest)) rfl

end Rules

/-- A lookup of a written route without a budget **takes the route as it is written**. -/
theorem written_cut (n : Names) (depth : Nat) (module : List String) (route : Route)
    (owner : Option TypeName) (skip : Option String) :
    (n.lookup depth).written module route owner skip 0 =
      (if route.isEmpty then [] else [inModule module route], 0) := by
  cases depth with
  | zero => rfl
  | succ depth => cases route <;> rfl

/-- A lookup below a module without a budget takes the route as it is written. -/
theorem member_cut (n : Names) (depth : Nat) (module : List String) (route : Route) :
    (n.lookup depth).member module route 0 =
      (if route.isEmpty then none else some [inModule module route], 0) := by
  cases depth with
  | zero => rfl
  | succ depth => cases route <;> rfl

/-- **A lookup that does not use up its budget finds the same with more**, as long as both may go
as deep as their budgets can pay for. -/
theorem lookup_extends {depth deeper : Nat} (hdepth : most ≤ depth)
    (hdeeper : most + extra ≤ deeper) :
    Lookup.Extends most extra (n.lookup depth) (n.lookup deeper) := by
  induction most generalizing depth deeper with
  | zero =>
      refine ⟨fun module route owner skip left hleft => ?_, fun module route left hleft => ?_⟩
      · obtain rfl := Nat.le_zero.mp hleft
        rw [n.written_cut]
        exact ⟨Nat.le_refl 0, fun hspare => absurd hspare (Nat.lt_irrefl 0)⟩
      · obtain rfl := Nat.le_zero.mp hleft
        rw [n.member_cut]
        exact ⟨Nat.le_refl 0, fun hspare => absurd hspare (Nat.lt_irrefl 0)⟩
  | succ most ih =>
      obtain ⟨depth, rfl⟩ : ∃ d, depth = d + 1 := ⟨depth - 1, by omega⟩
      obtain ⟨deeper, rfl⟩ : ∃ d, deeper = d + 1 := ⟨deeper - 1, by omega⟩
      have hinner : Lookup.Extends most extra (n.lookup depth) (n.lookup deeper) :=
        ih (by omega) (by omega)
      refine ⟨fun module route owner skip => ?_, fun module route => ?_⟩
      · rw [lookup_written, lookup_written]
        exact n.writtenRule_extends hinner module route owner skip
      · rw [lookup_member, lookup_member]
        exact n.memberRule_extends hinner module route

end Names

end CapabilityGate
