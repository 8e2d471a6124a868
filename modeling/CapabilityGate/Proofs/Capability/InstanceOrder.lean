import Mathlib.Order.Basic
import CapabilityGate.Proofs.Capability.TypeText
import CapabilityGate.Resolution.Model

/-!
# The order between types

A type that leaves its arguments out stands for itself with any arguments, and so does each type in
its arguments. What is an instance of what is then a partial order: the fewer arguments are written,
the more general a type is. Canonical forms write the names of the prelude in full, at every level
of a type, and keep this order.

## Main definitions

* `fullPath`: a path with a name of the prelude in full.

## Main results

* `instanceOf_self`, `instanceOf_trans`, `instanceOf_antisymm`: the laws of a partial order.
* `instanceOf_open_iff`: what a type without arguments stands for.
* `instanceOf_canonical`: the canonical form of an instance is an instance.
* `canonical_canonical`: canonical forms are taken once and for all.
* `instances_are_ordered`: all of this for any types, and for what is parsed.
-/

namespace CapabilityGate

/-! ### Instances -/

mutual

/-- A type is **an instance of itself**. -/
theorem instanceOf_self : ∀ t : TypeName, instanceOf t t = true
  | .mk p [] => by rw [instanceOf, beq_self_eq_true]
  | .mk p (a :: as) => by
    rw [instanceOf, beq_self_eq_true, instancesOf_self (a :: as)]
    rfl

theorem instancesOf_self : ∀ ts : List TypeName, instancesOf ts ts = true
  | [] => rfl
  | t :: ts => by
    rw [instancesOf, instanceOf_self t, instancesOf_self ts]
    rfl

end

mutual

/-- An instance of an instance is **an instance**. -/
theorem instanceOf_trans : ∀ s t u : TypeName,
    instanceOf s t = true → instanceOf t u = true → instanceOf s u = true
  | .mk p [], .mk q [], .mk r _, hst, htu => by
    rw [instanceOf, beq_iff_eq] at hst htu ⊢
    exact hst.trans htu
  | .mk p [], .mk q (b :: bs), .mk r _, hst, htu => by
    rw [instanceOf, beq_iff_eq] at hst ⊢
    rw [instanceOf, Bool.and_eq_true, beq_iff_eq] at htu
    exact hst.trans htu.1
  | .mk p (a :: as), .mk q [], .mk r _, hst, _ => by simp [instanceOf, instancesOf] at hst
  | .mk p (a :: as), .mk q (b :: bs), .mk r cs, hst, htu => by
    rw [instanceOf, Bool.and_eq_true, beq_iff_eq] at hst htu ⊢
    exact ⟨hst.1.trans htu.1, instancesOf_trans (a :: as) (b :: bs) cs hst.2 htu.2⟩

/-- The same for the members of lists, one by one. -/
theorem instancesOf_trans : ∀ ss ts us : List TypeName,
    instancesOf ss ts = true → instancesOf ts us = true → instancesOf ss us = true
  | [], [], us, _, htu => htu
  | s :: ss, t :: ts, u :: us, hst, htu => by
    rw [instancesOf, Bool.and_eq_true] at hst htu ⊢
    exact ⟨instanceOf_trans s t u hst.1 htu.1, instancesOf_trans ss ts us hst.2 htu.2⟩
  | [], _ :: _, _, hst, _ => by simp [instancesOf] at hst
  | _ :: _, [], _, hst, _ => by simp [instancesOf] at hst
  | _ :: _, _ :: _, [], _, htu => by simp [instancesOf] at htu

end

mutual

/-- Types that are instances of each other are **the same**. -/
theorem instanceOf_antisymm : ∀ s t : TypeName,
    instanceOf s t = true → instanceOf t s = true → s = t
  | .mk p [], .mk q [], hst, _ => by
    rw [instanceOf, beq_iff_eq] at hst
    rw [hst]
  -- a type that writes arguments has no instance that leaves them out
  | .mk p [], .mk q (b :: bs), _, hts => by simp [instanceOf, instancesOf] at hts
  | .mk p (a :: as), .mk q [], hst, _ => by simp [instanceOf, instancesOf] at hst
  | .mk p (a :: as), .mk q (b :: bs), hst, hts => by
    rw [instanceOf, Bool.and_eq_true, beq_iff_eq] at hst hts
    rw [hst.1, instancesOf_antisymm (a :: as) (b :: bs) hst.2 hts.2]

/-- The same for the members of lists, one by one. -/
theorem instancesOf_antisymm : ∀ ss ts : List TypeName,
    instancesOf ss ts = true → instancesOf ts ss = true → ss = ts
  | [], [], _, _ => rfl
  | s :: ss, t :: ts, hst, hts => by
    rw [instancesOf, Bool.and_eq_true] at hst hts
    rw [instanceOf_antisymm s t hst.1 hts.1, instancesOf_antisymm ss ts hst.2 hts.2]
  | [], _ :: _, hst, _ => by simp [instancesOf] at hst
  | _ :: _, [], hst, _ => by simp [instancesOf] at hst

end

/-- An instance of a type has the path of the type. -/
theorem path_eq_of_instanceOf : ∀ {s t : TypeName}, instanceOf s t = true → s.path = t.path
  | .mk p [], .mk q _, h => by
    rw [instanceOf, beq_iff_eq] at h
    exact h
  | .mk p (a :: as), .mk q _, h => by
    rw [instanceOf, Bool.and_eq_true, beq_iff_eq] at h
    exact h.1

/-- A type **without arguments** has exactly the types with its path as instances. -/
theorem instanceOf_open_iff {path : String} {t : TypeName} :
    instanceOf (.mk path []) t = true ↔ t.path = path := by
  obtain ⟨p, args⟩ := t
  rw [instanceOf, beq_iff_eq, TypeName.path]
  exact eq_comm

/-- What is an instance of what is **a partial order**. -/
instance isPartialOrder_instanceOf : IsPartialOrder TypeName fun s t => instanceOf s t = true where
  refl := instanceOf_self
  trans := instanceOf_trans
  antisymm := instanceOf_antisymm

/-! ### Canonical forms -/

/-- The path of a name of the prelude **in full**; any other path stays as it is. -/
def fullPath (path : String) : String :=
  (prelude? path).getD path

/-- The canonical form of a type has the full path in normal form, and canonical arguments. -/
theorem Model.canonical_mk (path : String) (args : List TypeName) :
    canonical (.mk path args) = .mk (normalPath (fullPath path)) (canonicalAll args) := by
  cases args with
  | nil => rfl
  | cons a as =>
      rw [canonical, canonicalAll, construct, namedType, TypeName.ofPath, TypeName.apply,
        TypeName.path, normalPath_normalPath]
      rfl

mutual

/-- The **canonical form** of an instance is an instance of the canonical form. -/
theorem instanceOf_canonical : ∀ s t : TypeName,
    instanceOf s t = true → instanceOf (Model.canonical s) (Model.canonical t) = true
  | .mk p [], .mk q bs, h => by
    rw [instanceOf, beq_iff_eq] at h
    rw [Model.canonical_mk, Model.canonical_mk, h, Model.canonicalAll, instanceOf,
      beq_self_eq_true]
  | .mk p (a :: as), .mk q bs, h => by
    rw [instanceOf, Bool.and_eq_true, beq_iff_eq] at h
    have hargs := instancesOf_canonicalAll (a :: as) bs h.2
    rw [Model.canonical_mk, Model.canonical_mk, h.1]
    rw [Model.canonicalAll] at hargs ⊢
    rw [instanceOf, beq_self_eq_true, Bool.true_and]
    exact hargs

/-- The same for the members of lists, one by one. -/
theorem instancesOf_canonicalAll : ∀ ss ts : List TypeName,
    instancesOf ss ts = true → instancesOf (Model.canonicalAll ss) (Model.canonicalAll ts) = true
  | [], [], _ => rfl
  | s :: ss, t :: ts, h => by
    rw [instancesOf, Bool.and_eq_true] at h
    rw [Model.canonicalAll, Model.canonicalAll, instancesOf, Bool.and_eq_true]
    exact ⟨instanceOf_canonical s t h.1, instancesOf_canonicalAll ss ts h.2⟩
  | [], _ :: _, h => by simp [instancesOf] at h
  | _ :: _, [], h => by simp [instancesOf] at h

end

/-- The full path of a name of the prelude is **no name of the prelude**. -/
theorem prelude?_of_prelude {name path : String} (h : prelude? name = some path) :
    prelude? path = none := by
  have hall : ∀ entry ∈ preludePaths, prelude? entry.2 = none := by decide
  exact hall (name, path) (mem_of_prelude h)

theorem fullPath_fullPath (path : String) : fullPath (fullPath path) = fullPath path := by
  cases hfull : prelude? path with
  | none => rw [fullPath, fullPath, hfull, Option.getD_none, hfull, Option.getD_none]
  | some full =>
      rw [fullPath, fullPath, hfull, Option.getD_some, prelude?_of_prelude hfull,
        Option.getD_none]

/-- A path in normal form is in normal form **in full** too. -/
theorem normalPath_fullPath {path : String} (h : normalPath path = path) :
    normalPath (fullPath path) = fullPath path := by
  cases hfull : prelude? path with
  | none => rw [fullPath, hfull, Option.getD_none, h]
  | some full => rw [fullPath, hfull, Option.getD_some, normalPath_of_prelude hfull]

mutual

/-- A type whose paths are in normal form has a canonical form that is **its own canonical
form**. -/
theorem canonical_canonical : ∀ {t : TypeName},
    t.AllPaths (fun path => normalPath path = path) →
      Model.canonical (Model.canonical t) = Model.canonical t
  | .mk path args, ⟨hpath, hargs⟩ => by
    rw [Model.canonical_mk, Model.canonical_mk, canonicalAll_canonicalAll hargs,
      normalPath_fullPath hpath, fullPath_fullPath, normalPath_fullPath hpath]

theorem canonicalAll_canonicalAll : ∀ {ts : List TypeName},
    TypeName.ArgsAllPaths (fun path => normalPath path = path) ts →
      Model.canonicalAll (Model.canonicalAll ts) = Model.canonicalAll ts
  | [], _ => rfl
  | _ :: _, ⟨hfirst, hrest⟩ => by
    rw [Model.canonicalAll, Model.canonicalAll, canonical_canonical hfirst,
      canonicalAll_canonicalAll hrest]

end

/-- **Types are ordered by their instances.** What is an instance of what is a partial order; a type
without arguments has exactly the types with its path as instances; the canonical form of an
instance is an instance of the canonical form; and the canonical form of a type that is parsed is
its own canonical form. -/
theorem instances_are_ordered :
    IsPartialOrder TypeName (fun s t => instanceOf s t = true) ∧
      (∀ path t, instanceOf (.mk path []) t = true ↔ t.path = path) ∧
      (∀ s t, instanceOf s t = true →
        instanceOf (Model.canonical s) (Model.canonical t) = true) ∧
      ∀ text t, TypeName.parse text = .ok t →
        Model.canonical (Model.canonical t) = Model.canonical t := by
  refine ⟨inferInstance, fun path t => instanceOf_open_iff, instanceOf_canonical,
    fun text t hparse => ?_⟩
  obtain ⟨rest, hreads, -⟩ := TypeName.parse_eq_ok_iff.mp hparse
  exact canonical_canonical (.imp (fun _ hproper _ => hproper.1) hreads.allPaths hreads.allPaths)

/-- The type `Vec` without arguments, `Vec<Box>` and `Vec<Box<u8>>` become more special one after
another, and so do their canonical forms. -/
theorem vectors_are_ordered :
    let vectors : TypeName := .mk "Vec" []
    let ofBoxes : TypeName := .mk "Vec" [.mk "Box" []]
    let ofBytes : TypeName := .mk "Vec" [.mk "Box" [.mk "u8" []]]
    instanceOf vectors ofBoxes = true ∧ instanceOf ofBoxes ofBytes = true ∧
      instanceOf vectors ofBytes = true ∧ instanceOf ofBytes ofBoxes = false ∧
      instanceOf (Model.canonical ofBoxes) (Model.canonical ofBytes) = true ∧
      TypeName.parse "Vec<Box<u8>>" = .ok ofBytes ∧
      Model.canonical ofBytes =
        .mk "std::vec::Vec" [.mk "std::boxed::Box" [.mk "u8" []]] ∧
      Model.canonical (Model.canonical ofBytes) = Model.canonical ofBytes := by
  intro vectors ofBoxes ofBytes
  obtain ⟨horder, hopen, hcanonical, htwice⟩ := instances_are_ordered
  have hvectors : instanceOf vectors ofBoxes = true := (hopen "Vec" ofBoxes).mpr rfl
  have hboxes : instanceOf ofBoxes ofBytes = true := by decide
  have hne : ofBytes ≠ ofBoxes := by decide
  have hback : instanceOf ofBytes ofBoxes = false := by
    rw [← Bool.not_eq_true]
    exact fun hbytes => hne (horder.antisymm _ _ hbytes hboxes)
  have hparse : TypeName.parse "Vec<Box<u8>>" = .ok ofBytes := by decide +kernel
  exact ⟨hvectors, hboxes, horder.trans _ _ _ hvectors hboxes, hback, hcanonical _ _ hboxes,
    hparse, by decide +kernel, htwice _ _ hparse⟩

/-- A path that is not in normal form may become a name of the prelude when its canonical form is
taken, and this name has another canonical form. -/
example : Model.canonical (.mk " Vec" []) = .mk "Vec" [] ∧
    Model.canonical (.mk "Vec" []) = .mk "std::vec::Vec" [] := by
  decide +kernel

end CapabilityGate
