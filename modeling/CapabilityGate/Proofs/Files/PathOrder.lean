import CapabilityGate.Files.Path
import Mathlib.Data.List.Induction
import Mathlib.Data.List.Lex
import Mathlib.Data.Prod.Lex
import Mathlib.Data.String.Basic

/-!
# Paths in order

Paths come before each other as their components do, one by one, and components do by their kinds,
or by their texts if they are names. Of any two paths with different components one comes before the
other, and so paths that are put into a list in order stand there once each.

## Main definitions

* `FilePath.Component.key`, `FilePath.key`: what components and paths are ordered by.
* `FilePath.insertAll`: paths put into a list in order.

## Main results

* `FilePath.before_iff`: a path comes before another one if its key is less.
* `FilePath.pairwise_insertAll`: paths that are put into a list in order are in order.
* `FilePath.mem_of_mem_insertAll`, `FilePath.exists_mem_insertAll`: they are some of those that were
  put in, and each of those is among them but for the way it is written.
-/

namespace CapabilityGate.FilePath

/-! ### The order -/

/-- The name that a component is, if it is one. -/
def Component.text : Component → String
  | name s => s
  | _ => ""

/-- What a component is **ordered by**: its kind, and then the name. -/
def Component.key (a : Component) : ℕ ×ₗ String :=
  toLex (Component.before.rank a, a.text)

/-- A component comes before another one if **its key is less**. -/
theorem Component.before_iff (a b : Component) : a.before b = true ↔ a.key < b.key := by
  rw [key, key, Prod.Lex.toLex_lt_toLex]
  cases a <;> cases b <;> simp [before, before.rank, text]

theorem Component.key_injective : Function.Injective Component.key := by
  intro a b h
  cases a <;> cases b <;> simp_all [key, before.rank, text]

/-- What a path is **ordered by**. -/
def key (path : String) : List (ℕ ×ₗ String) :=
  (components path).map Component.key

/-- A list of components comes before another one if **their keys are less**. -/
theorem componentsBefore_iff (as bs : List Component) :
    componentsBefore as bs = true ↔ as.map Component.key < bs.map Component.key := by
  induction as generalizing bs with
  | nil => cases bs <;> simp [componentsBefore]
  | cons a as ih =>
      cases bs with
      | nil => simp [componentsBefore]
      | cons b bs =>
          rw [componentsBefore, List.map_cons, List.map_cons, List.cons_lt_cons_iff,
            Bool.or_eq_true_iff, Bool.and_eq_true_iff, decide_eq_true_iff, Component.before_iff, ih,
            Component.key_injective.eq_iff]

/-- A path comes before another one if **its key is less**. -/
theorem before_iff {p q : String} : before p q = true ↔ key p < key q :=
  componentsBefore_iff _ _

/-- Paths have one key if they have **the same components**. -/
theorem key_eq_iff {p q : String} : key p = key q ↔ components p = components q :=
  Component.key_injective.list_map.eq_iff

/-- Of paths with different components one comes **before the other**. -/
theorem before_or_before {p q : String} (hne : components p ≠ components q)
    (h : ¬ before p q = true) : before q p = true := by
  rw [before_iff] at h ⊢
  exact lt_of_le_of_ne (not_lt.mp h) fun heq => hne (key_eq_iff.mp heq.symm)

theorem before_trans {p q r : String} (h : before p q = true) (hnext : before q r = true) :
    before p r = true := by
  rw [before_iff] at h hnext ⊢
  exact h.trans hnext

/-- A path that comes before another one has **other components**. -/
theorem components_ne_of_before {p q : String} (h : before p q = true) :
    components p ≠ components q := by
  rw [before_iff] at h
  exact fun heq => h.ne (key_eq_iff.mpr heq)

/-! ### Paths put in order -/

variable {p q : String} {paths : List String}

/-- A path that is put into a list is **there**, with those that were, and no other ones are. -/
theorem mem_of_mem_insertOrdered (h : q ∈ insertOrdered p paths) : q = p ∨ q ∈ paths := by
  induction paths with
  | nil => exact Or.inl (List.mem_singleton.mp h)
  | cons first paths ih =>
      rw [insertOrdered] at h
      split at h
      · exact Or.inr h
      · split at h
        · exact (List.mem_cons.mp h)
        · rcases List.mem_cons.mp h with rfl | h
          · exact Or.inr List.mem_cons_self
          · exact (ih h).imp_right (List.mem_cons_of_mem first)

/-- What is in a list **stays** there when a path is put into it. -/
theorem mem_insertOrdered_of_mem (p : String) (h : q ∈ paths) : q ∈ insertOrdered p paths := by
  induction paths with
  | nil => exact absurd h List.not_mem_nil
  | cons first paths ih =>
      rw [insertOrdered]
      split
      · exact h
      · split
        · exact List.mem_cons_of_mem p h
        · rcases List.mem_cons.mp h with rfl | h
          · exact List.mem_cons_self
          · exact List.mem_cons_of_mem first (ih h)

/-- A path that is put into a list is **among those there**, but for the way it is written. -/
theorem exists_mem_insertOrdered (p : String) (paths : List String) :
    ∃ q ∈ insertOrdered p paths, components q = components p := by
  induction paths with
  | nil => exact ⟨p, List.mem_singleton_self p, rfl⟩
  | cons first paths ih =>
      rw [insertOrdered]
      split
      next heq => exact ⟨first, List.mem_cons_self, heq.symm⟩
      next =>
        split
        · exact ⟨p, List.mem_cons_self, rfl⟩
        · obtain ⟨q, hq, heq⟩ := ih
          exact ⟨q, List.mem_cons_of_mem first hq, heq⟩

/-- A list in order **stays** in order when a path is put into it. -/
theorem pairwise_insertOrdered (p : String) (h : paths.Pairwise (before · · = true)) :
    (insertOrdered p paths).Pairwise (before · · = true) := by
  induction paths with
  | nil => exact List.pairwise_singleton _ _
  | cons first paths ih =>
      obtain ⟨hfirst, hpaths⟩ := List.pairwise_cons.mp h
      rw [insertOrdered]
      split
      next => exact h
      next hne =>
        split
        next hbefore =>
          refine List.pairwise_cons.mpr ⟨fun q hq => ?_, h⟩
          rcases List.mem_cons.mp hq with rfl | hq
          · exact hbefore
          · exact before_trans hbefore (hfirst q hq)
        next hbehind =>
          refine List.pairwise_cons.mpr ⟨fun q hq => ?_, ih hpaths⟩
          rcases mem_of_mem_insertOrdered hq with rfl | hq
          · exact before_or_before hne hbehind
          · exact hfirst q hq

/-- Paths **put into a list** in order, one after another. -/
def insertAll (paths : List String) : List String :=
  paths.foldl (fun done path => insertOrdered path done) []

theorem insertAll_concat (paths : List String) (p : String) :
    insertAll (paths ++ [p]) = insertOrdered p (insertAll paths) := by
  rw [insertAll, List.foldl_append]
  rfl

/-- Paths that are put into a list in order **are in order**. -/
theorem pairwise_insertAll (paths : List String) :
    (insertAll paths).Pairwise (before · · = true) := by
  induction paths using List.reverseRecOn with
  | nil => exact List.Pairwise.nil
  | append_singleton paths p ih =>
      rw [insertAll_concat]
      exact pairwise_insertOrdered p ih

/-- There are **no other paths** than those that were put in. -/
theorem mem_of_mem_insertAll (h : q ∈ insertAll paths) : q ∈ paths := by
  induction paths using List.reverseRecOn with
  | nil => exact absurd h List.not_mem_nil
  | append_singleton paths p ih =>
      rw [insertAll_concat] at h
      rcases mem_of_mem_insertOrdered h with rfl | h
      · exact List.mem_append_right _ (List.mem_singleton_self q)
      · exact List.mem_append_left _ (ih h)

/-- **Each path** that was put in is there, but for the way it is written. -/
theorem exists_mem_insertAll (h : p ∈ paths) :
    ∃ q ∈ insertAll paths, components q = components p := by
  induction paths using List.reverseRecOn with
  | nil => exact absurd h List.not_mem_nil
  | append_singleton paths last ih =>
      rw [insertAll_concat]
      rcases List.mem_append.mp h with h | h
      · obtain ⟨q, hq, heq⟩ := ih h
        exact ⟨q, mem_insertOrdered_of_mem last hq, heq⟩
      · rw [List.mem_singleton.mp h]
        exact exists_mem_insertOrdered last _

end CapabilityGate.FilePath
