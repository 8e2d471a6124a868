import Mathlib.Data.List.Forall2

/-!
# Comparing lists by their members

Two lists may be compared by a relation between their members: one by one, or in any order. Either
way the comparison is kept when lists are joined, and when each member stands for a list itself.

## Main definitions

* `Matched`: two lists with the same members, up to a relation and in any order.
* `ComparesLists`: what a way to compare lists keeps.

## Main results

* `comparesLists_matched`, `comparesLists_forall₂`: comparing in any order, and one by one.
-/

namespace CapabilityGate.Program

open List (Forall₂)

/-! ### Lists in any order -/

/-- Two lists **match** when each member of one of them has a counterpart in the other one. -/
structure Matched {α : Type} (R : α → α → Prop) (as bs : List α) : Prop where
  /-- The members of the first list have counterparts in the second one. -/
  left : ∀ a ∈ as, ∃ b ∈ bs, R a b
  /-- The members of the second list have counterparts in the first one. -/
  right : ∀ b ∈ bs, ∃ a ∈ as, R a b

namespace Matched

variable {α : Type} {R : α → α → Prop} {as bs cs ds : List α} {a b : α}

/-- Nothing **matches nothing**. -/
theorem nil : Matched R [] [] :=
  ⟨fun _ h => absurd h List.not_mem_nil, fun _ h => absurd h List.not_mem_nil⟩

/-- Members that are related match **in front of lists that match**. -/
theorem cons (h : R a b) (hrest : Matched R as bs) : Matched R (a :: as) (b :: bs) := by
  constructor
  · intro x hx
    rcases List.mem_cons.mp hx with rfl | hx
    · exact ⟨b, List.mem_cons_self .., h⟩
    · obtain ⟨y, hy, hxy⟩ := hrest.left x hx
      exact ⟨y, List.mem_cons_of_mem _ hy, hxy⟩
  · intro y hy
    rcases List.mem_cons.mp hy with rfl | hy
    · exact ⟨a, List.mem_cons_self .., h⟩
    · obtain ⟨x, hx, hxy⟩ := hrest.right y hy
      exact ⟨x, List.mem_cons_of_mem _ hx, hxy⟩

/-- They match on their own. -/
theorem singleton (h : R a b) : Matched R [a] [b] :=
  nil.cons h

/-- Lists that match do so **behind lists that match**. -/
theorem append (h : Matched R as bs) (hrest : Matched R cs ds) :
    Matched R (as ++ cs) (bs ++ ds) := by
  constructor
  · intro x hx
    rcases List.mem_append.mp hx with hx | hx
    · obtain ⟨y, hy, hxy⟩ := h.left x hx
      exact ⟨y, List.mem_append_left _ hy, hxy⟩
    · obtain ⟨y, hy, hxy⟩ := hrest.left x hx
      exact ⟨y, List.mem_append_right _ hy, hxy⟩
  · intro y hy
    rcases List.mem_append.mp hy with hy | hy
    · obtain ⟨x, hx, hxy⟩ := h.right y hy
      exact ⟨x, List.mem_append_left _ hx, hxy⟩
    · obtain ⟨x, hx, hxy⟩ := hrest.right y hy
      exact ⟨x, List.mem_append_right _ hx, hxy⟩

/-- Lists may be replaced by others with the same members. -/
theorem of_mem_iff (h : Matched R as bs) (has : ∀ x, x ∈ as ↔ x ∈ cs)
    (hbs : ∀ x, x ∈ bs ↔ x ∈ ds) : Matched R cs ds := by
  constructor
  · intro x hx
    obtain ⟨y, hy, hxy⟩ := h.left x ((has x).mpr hx)
    exact ⟨y, (hbs y).mp hy, hxy⟩
  · intro y hy
    obtain ⟨x, hx, hxy⟩ := h.right y ((hbs y).mpr hy)
    exact ⟨x, (has x).mp hx, hxy⟩

/-- Lists that stand for the members of matching lists match, if they do so for each pair. -/
theorem flatMap {β : Type} {S : β → β → Prop} {f g : α → List β} (h : Matched R as bs)
    (hfg : ∀ a ∈ as, ∀ b, R a b → Matched S (f a) (g b)) :
    Matched S (as.flatMap f) (bs.flatMap g) := by
  constructor
  · intro x hx
    obtain ⟨a, ha, hx⟩ := List.mem_flatMap.mp hx
    obtain ⟨b, hb, hab⟩ := h.left a ha
    obtain ⟨y, hy, hxy⟩ := (hfg a ha b hab).left x hx
    exact ⟨y, List.mem_flatMap.mpr ⟨b, hb, hy⟩, hxy⟩
  · intro y hy
    obtain ⟨b, hb, hy⟩ := List.mem_flatMap.mp hy
    obtain ⟨a, ha, hab⟩ := h.right b hb
    obtain ⟨x, hx, hxy⟩ := (hfg a ha b hab).right y hy
    exact ⟨x, List.mem_flatMap.mpr ⟨a, ha, hx⟩, hxy⟩

/-- Lists that match may be left out together. -/
theorem ite_nil (h : Matched R as bs) (c : Prop) [Decidable c] :
    Matched R (if c then [] else as) (if c then [] else bs) := by
  split
  · exact .nil
  · exact h

/-- The images of a list match when those of each member do. -/
theorem of_map {β : Type} {f g : β → α} (xs : List β) (h : ∀ x, R (f x) (g x)) :
    Matched R (xs.map f) (xs.map g) := by
  induction xs with
  | nil => exact .nil
  | cons x rest ih => exact ih.cons (h x)

/-- Of matching lists one has a member with a property when the other one has a member with the
property that corresponds. -/
theorem exists_iff {P Q : α → Prop} (h : Matched R as bs) (hpq : ∀ a b, R a b → (P a ↔ Q b)) :
    (∃ a ∈ as, P a) ↔ ∃ b ∈ bs, Q b := by
  constructor
  · rintro ⟨a, ha, hpa⟩
    obtain ⟨b, hb, hab⟩ := h.left a ha
    exact ⟨b, hb, (hpq a b hab).mp hpa⟩
  · rintro ⟨b, hb, hqb⟩
    obtain ⟨a, ha, hab⟩ := h.right b hb
    exact ⟨a, ha, (hpq a b hab).mpr hqb⟩

/-- Lists that are related **one by one** match. -/
theorem of_forall₂ (h : Forall₂ R as bs) : Matched R as bs := by
  induction h with
  | nil => exact .nil
  | cons hab hrest ih => exact ih.cons hab

/-- A list with its members **moved** matches the list. -/
theorem perm (h : Matched R as bs) (hperm : bs.Perm cs) : Matched R as cs :=
  h.of_mem_iff (fun _ => Iff.rfl) fun _ => hperm.mem_iff

end Matched

/-! ### Ways to compare lists -/

/-- What a way to **compare lists** by a relation between their members keeps. -/
structure ComparesLists (F : (α : Type) → (α → α → Prop) → List α → List α → Prop) : Prop where
  /-- Empty lists are related. -/
  nil : ∀ {α : Type} {R : α → α → Prop}, F α R [] []
  /-- Lists of one member are related when the members are. -/
  singleton : ∀ {α : Type} {R : α → α → Prop} {a b : α}, R a b → F α R [a] [b]
  /-- Related lists may be joined. -/
  append : ∀ {α : Type} {R : α → α → Prop} {as bs cs ds : List α}, F α R as bs → F α R cs ds →
    F α R (as ++ cs) (bs ++ ds)
  /-- The members of related lists may stand for related lists. -/
  flatMap : ∀ {α β : Type} {R : α → α → Prop} {S : β → β → Prop} {f g : α → List β}
    {as bs : List α}, F α R as bs → (∀ a ∈ as, ∀ b, R a b → F β S (f a) (g b)) →
    F β S (as.flatMap f) (bs.flatMap g)

/-- Lists may be compared **in any order**. -/
theorem comparesLists_matched : ComparesLists fun _ => Matched where
  nil := .nil
  singleton := .singleton
  append := .append
  flatMap := .flatMap

/-- Lists may be compared **one by one**. -/
theorem comparesLists_forall₂ : ComparesLists fun _ => Forall₂ where
  nil := .nil
  singleton h := .cons h .nil
  append h hrest := List.rel_append h hrest
  flatMap {_ _ _ _ f g as bs} h hfg := by
    induction h with
    | nil => exact .nil
    | cons hab hrest ih =>
        rw [List.flatMap_cons, List.flatMap_cons]
        exact List.rel_append (hfg _ (List.mem_cons_self ..) _ hab)
          (ih fun a ha => hfg a (List.mem_cons_of_mem _ ha))

namespace ComparesLists

variable {F : (α : Type) → (α → α → Prop) → List α → List α → Prop} (hF : ComparesLists F)
  {α β : Type} {R : α → α → Prop} {S : β → β → Prop} {as bs : List α}

include hF

/-- The members of related lists may be **replaced** by related ones. -/
theorem map {f g : α → β} (h : F α R as bs) (hfg : ∀ a b, R a b → S (f a) (g b)) :
    F β S (as.map f) (bs.map g) := by
  rw [List.map_eq_flatMap, List.map_eq_flatMap]
  exact hF.flatMap h fun a _ b hab => hF.singleton (hfg a b hab)

/-- Members of related lists may be **left out**, if of each two that are related both are kept or
neither is. -/
theorem filter {p q : α → Bool} (h : F α R as bs) (hpq : ∀ a b, R a b → p a = q b) :
    F α R (as.filter p) (bs.filter q) := by
  have hflat : ∀ (p : α → Bool) (as : List α),
      as.filter p = as.flatMap fun a => if p a then [a] else [] := by
    intro p as
    induction as with
    | nil => rfl
    | cons a rest ih => cases hp : p a <;> simp [hp, ih]
  rw [hflat, hflat]
  refine hF.flatMap h fun a _ b hab => ?_
  rw [hpq a b hab]
  split
  · exact hF.singleton hab
  · exact hF.nil

end ComparesLists

end CapabilityGate.Program
