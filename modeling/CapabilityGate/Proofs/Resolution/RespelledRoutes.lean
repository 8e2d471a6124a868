import Mathlib.Data.List.Forall2
import CapabilityGate.Proofs.Capability.PathParts
import CapabilityGate.Proofs.Program.RespelledWalk
import CapabilityGate.Proofs.Resolution.Candidates

/-!
# Types and routes in another spelling

What name resolution works with, and what it finds, are types and routes. They are the same in
another spelling when all their names are. A route that is looked up may start with another root of
the standard library besides; what is found for it does not.

## Main definitions

* `Spelling.Path`, `TypeName.Respelled`: paths and types in another spelling.
* `Route.Respelled`: a route in another spelling.
* `Route.Written`: a route in another spelling, perhaps with another standard root.
* `Route.Found`: a route in another spelling that is not empty.

## Main results

* `Spelling.path_joinPath`: names in another spelling spell paths in that spelling.
* `Route.Found.type`, `Route.Respelled.split?`: what a route names in another spelling.
-/

namespace CapabilityGate

open Program

open List (Forall₂ rel_append rel_map)

variable {σ : Spelling}

/-! ### Paths -/

namespace Spelling

/-- Two paths in normal form are the same **in another spelling** when their names are. -/
structure Path (σ : Spelling) (p q : String) : Prop where
  /-- The first path is in normal form. -/
  left : normalPath p = p
  /-- So is the second one. -/
  right : normalPath q = q
  /-- The names are the same, one by one. -/
  names : Forall₂ σ.Name (splitPath p) (splitPath q)

/-- Names in another spelling stand for names in that spelling **at the start of a path** too. -/
theorem Name.standardName {a b : String} (h : σ.Name a b) :
    σ.Name (standardName a) (standardName b) := by
  rw [CapabilityGate.standardName, CapabilityGate.standardName, ← h.beq_known (by decide),
    ← h.beq_known (by decide)]
  split
  · exact .of_known (by decide)
  · exact h

/-- Names are certain words in one spelling **if and only if** they are those words in the other
one. -/
theorem names_eq_iff {as bs cs ds : List String} (h : Forall₂ σ.Name as bs)
    (hwords : Forall₂ σ.word cs ds) : as = cs ↔ bs = ds := by
  induction h generalizing cs ds with
  | nil => cases hwords <;> simp
  | cons h _ ih =>
      cases hwords with
      | nil => simp
      | cons hword hwords => rw [List.cons.injEq, List.cons.injEq, h.eq_iff hword, ih hwords]

/-- Names in another spelling **spell a path** in that spelling. -/
theorem path_joinPath {as bs : List String} (h : Forall₂ σ.Name as bs) (hne : as ≠ []) :
    σ.Path (normalPath (joinPath as)) (normalPath (joinPath bs)) := by
  refine ⟨normalPath_normalPath _, normalPath_normalPath _, ?_⟩
  have hne' : bs ≠ [] := by
    rintro rfl
    exact hne (List.forall₂_nil_right_iff.mp h)
  have hparts : (∀ a ∈ as, isPart a = true) ∧ ∀ b ∈ bs, isPart b = true := by
    clear hne hne'
    induction h with
    | nil => simp
    | cons h _ ih =>
        obtain ⟨ha, hb⟩ := h.isPart
        exact ⟨List.forall_mem_cons.mpr ⟨ha, ih.1⟩, List.forall_mem_cons.mpr ⟨hb, ih.2⟩⟩
  -- empty names at the start are dropped in both spellings
  have hdrop : Forall₂ σ.Name (as.dropWhile (· == "")) (bs.dropWhile (· == "")) := by
    clear hne hne' hparts
    induction h with
    | nil => exact .nil
    | @cons a b as bs h hrest ih =>
        have hempty : (a == "") = (b == "") :=
          Bool.eq_iff_iff.mpr (by simpa using h.eq_empty_iff)
        rw [List.dropWhile_cons, List.dropWhile_cons, hempty]
        split
        · exact ih
        · exact .cons h hrest
  rw [splitPath_normalPath_joinPath hne hparts.1, splitPath_normalPath_joinPath hne' hparts.2]
  generalize as.dropWhile (· == "") = kept at hdrop
  generalize bs.dropWhile (· == "") = others at hdrop
  cases hdrop with
  | nil => exact .cons (Or.inr ⟨rfl, rfl, rfl, rfl, rfl, Or.inl rfl⟩) .nil
  | cons h hrest => exact .cons h.standardName hrest

/-- Texts that stand for the same type spell **the same path**. -/
theorem Text.path {text other : String} (h : σ.Text text other) :
    σ.Path (normalPath text) (normalPath other) :=
  ⟨normalPath_normalPath _, normalPath_normalPath _, h⟩

end Spelling

/-! ### Types -/

mutual

/-- A type is another one **in another spelling**. -/
inductive TypeName.Respelled (σ : Spelling) : TypeName → TypeName → Prop
  | mk {p q : String} {as bs : List TypeName} (hpath : σ.Path p q)
      (hargs : TypesRespelled σ as bs) : TypeName.Respelled σ (.mk p as) (.mk q bs)

/-- Types are others in another spelling, one by one. -/
inductive TypesRespelled (σ : Spelling) : List TypeName → List TypeName → Prop
  | nil : TypesRespelled σ [] []
  | cons {s t : TypeName} {as bs : List TypeName} (h : s.Respelled σ t)
      (hrest : TypesRespelled σ as bs) : TypesRespelled σ (s :: as) (t :: bs)

end

/-- A type in another spelling has **its path** in that spelling. -/
theorem TypeName.Respelled.path {s t : TypeName} (h : s.Respelled σ t) : σ.Path s.path t.path := by
  cases h with
  | mk hpath hargs => exact hpath

/-- So it has its arguments. -/
theorem TypeName.Respelled.args {s t : TypeName} (h : s.Respelled σ t) :
    TypesRespelled σ s.args t.args := by
  cases h with
  | mk hpath hargs => exact hargs

/-- Types in another spelling are there **exactly if the types are**. -/
theorem TypesRespelled.isEmpty_eq {as bs : List TypeName} (h : TypesRespelled σ as bs) :
    as.isEmpty = bs.isEmpty := by
  cases h <;> rfl

/-! ### Routes -/

/-- A step of a route is another one in another spelling. -/
structure Step.Respelled (σ : Spelling) (s t : Step) : Prop where
  /-- Its name is. -/
  name : σ.Name s.name t.name
  /-- Its arguments are. -/
  args : TypesRespelled σ s.args t.args

namespace Route

/-- A route is another one **in another spelling**. -/
def Respelled (σ : Spelling) (r s : Route) : Prop :=
  Forall₂ (Step.Respelled σ) r s

/-- A route that is to be looked up is another one in another spelling, or **with another root** of
the standard library. -/
inductive Written (σ : Spelling) : Route → Route → Prop
  | same {r s : Route} (h : r.Respelled σ s) : Written σ r s
  | root {first other : Step} {rest more : Route} (hroots : σ.roots = true)
      (hfirst : first.name ∈ standardRoots) (hother : other.name ∈ standardRoots)
      (hargs : TypesRespelled σ first.args other.args) (hrest : rest.Respelled σ more) :
      Written σ (first :: rest) (other :: more)

variable {r s : Route}

/-- A route in another spelling has **its names** in that spelling. -/
theorem Respelled.map_name (h : r.Respelled σ s) :
    Forall₂ σ.Name (r.map Step.name) (s.map Step.name) :=
  rel_map (fun _ _ h => h.name) h

/-- Names in another spelling are **routes** in that spelling. -/
theorem respelled_ofNames {as bs : List String} (h : Forall₂ σ.Name as bs) :
    (ofNames as).Respelled σ (ofNames bs) :=
  rel_map (fun _ _ h => ⟨h, .nil⟩) h

/-- So are two routes **one behind the other**. -/
theorem Respelled.append {r' s' : Route} (h : r.Respelled σ s) (hmore : r'.Respelled σ s') :
    Respelled σ (r ++ r') (s ++ s') :=
  rel_append h hmore

/-- A route into a module of the program is the same in another spelling. -/
theorem Respelled.inModule {m m' : List String} (hmodule : Forall₂ σ.Name m m')
    (h : r.Respelled σ s) : Respelled σ (inModule m r) (inModule m' s) :=
  .cons ⟨.of_known (by decide), .nil⟩ (rel_append (respelled_ofNames hmodule) h)

/-- So is a route **with other arguments**, if these are. -/
theorem Respelled.withArgs {as bs : List TypeName} (hargs : TypesRespelled σ as bs)
    (h : r.Respelled σ s) : Respelled σ (r.withArgs as) (s.withArgs bs) := by
  induction h with
  | nil => exact .nil
  | cons hstep hrest ih =>
      cases hrest with
      | nil => exact .cons ⟨hstep.name, hargs⟩ .nil
      | cons hnext hmore => exact .cons hstep ih

/-- The route to a type is the same in another spelling. -/
theorem respelled_ofType {t u : TypeName} (h : t.Respelled σ u) :
    (ofType t).Respelled σ (ofType u) := by
  rw [ofType, ofType, ofPath, ofPath, h.path.left, h.path.right]
  exact .withArgs h.args (respelled_ofNames h.path.names)

/-- What is put in place of the first step is the same in another spelling. -/
theorem Respelled.substitute {written other : Route} (h : r.Respelled σ s)
    (hwritten : Written σ written other) :
    Respelled σ (substitute r written) (substitute s other) := by
  have hcons : ∀ {first first' : Step} {rest rest' : Route},
      TypesRespelled σ first.args first'.args → rest.Respelled σ rest' →
        Respelled σ (Route.substitute r (first :: rest)) (Route.substitute s (first' :: rest')) := by
    intro first first' rest rest' hargs hrest
    rw [Route.substitute, Route.substitute, hargs.isEmpty_eq]
    split
    · exact h.append hrest
    · exact (h.withArgs hargs).append hrest
  cases hwritten with
  | same hsame =>
      cases hsame with
      | nil => exact h
      | cons hstep hrest => exact hcons hstep.args hrest
  | root _ _ _ hargs hrest => exact hcons hargs hrest

/-- The arguments at the end of a route are **those in the other spelling**. -/
theorem Respelled.lastArgs (h : r.Respelled σ s) : TypesRespelled σ r.lastArgs s.lastArgs := by
  induction h with
  | nil => exact .nil
  | cons hstep hrest ih =>
      cases hrest with
      | nil => exact hstep.args
      | cons hnext hmore =>
          rw [Route.lastArgs, Route.lastArgs, List.getLast?_cons_cons, List.getLast?_cons_cons]
          exact ih

/-- The container and the name of an item are the same in another spelling. -/
theorem Respelled.split? (h : r.Respelled σ s) :
    Option.Rel (fun a b => a.1.Respelled σ b.1 ∧ σ.Name a.2 b.2) r.split? s.split? := by
  have hreverse : Forall₂ (Step.Respelled σ) r.reverse s.reverse := List.rel_reverse h
  rw [Route.split?, Route.split?]
  generalize r.reverse = r' at hreverse
  generalize s.reverse = s' at hreverse
  cases hreverse with
  | nil => exact .none
  | cons hmethod hrest =>
      cases hrest with
      | nil => exact .none
      | cons howner habove =>
          have hcontainer : Respelled σ _ _ := List.rel_reverse (Forall₂.cons howner habove)
          refine .some ⟨.mk (Spelling.path_joinPath hcontainer.map_name (by simp)) howner.args, ?_⟩
          exact hmethod.name

/-- A route that is read as it is written starts with the standard root in both spellings. -/
theorem Written.literal (h : Written σ r s) :
    Respelled σ (Names.literal r) (Names.literal s) := by
  have hstd : σ.Name "std" "std" := .of_known (by decide)
  cases h with
  | same h =>
      cases h with
      | nil => exact .nil
      | cons hstep hrest =>
          rw [Names.literal, Names.literal, ← hstep.name.beq_known (by decide),
            ← hstep.name.beq_known (by decide)]
          split
          · exact .cons ⟨hstd, hstep.args⟩ hrest
          · exact .cons hstep hrest
  | @root first other rest more hroots hfirst hother hargs hrest =>
      have hstandard : ∀ {s : Step}, s.name ∈ standardRoots → ∀ rest : Route,
          Names.literal (s :: rest) = ⟨"std", s.args⟩ :: rest := by
        intro s hs rest
        simp only [standardRoots, List.mem_cons, List.not_mem_nil, or_false] at hs
        obtain ⟨name, args⟩ := s
        rcases hs with rfl | rfl | rfl <;> rfl
      rw [hstandard hfirst, hstandard hother]
      exact .cons ⟨hstd, hargs⟩ hrest

/-! ### Routes that are found -/

/-- A route that is **found** for another one is the same in another spelling, and not empty. -/
structure Found (σ : Spelling) (r s : Route) : Prop where
  /-- It is not empty. -/
  ne_nil : r ≠ []
  /-- It is the same in another spelling. -/
  respelled : r.Respelled σ s

/-- What is found below a module is found **in the other spelling below the module
of that spelling**. -/
theorem Found.inModule {m m' : List String} (hmodule : Forall₂ σ.Name m m')
    (h : r.Respelled σ s) : Found σ (inModule m r) (inModule m' s) :=
  ⟨List.cons_ne_nil _ _, h.inModule hmodule⟩

/-- It may have **more steps** behind it. -/
theorem Found.append {r' s' : Route} (h : Found σ r s) (hmore : r'.Respelled σ s') :
    Found σ (r ++ r') (s ++ s') :=
  ⟨List.append_ne_nil_of_left_ne_nil h.ne_nil _, h.respelled.append hmore⟩

/-- A type in another spelling is found **as the route to it**. -/
theorem Found.ofType {t u : TypeName} (h : t.Respelled σ u) : Found σ (ofType t) (ofType u) :=
  ⟨ofType_ne_nil t, respelled_ofType h⟩

/-- What is found in place of a first step is found **with the steps behind it**. -/
theorem Found.substitute {written other : Route} (h : Found σ r s)
    (hwritten : Written σ written other) :
    Found σ (substitute r written) (substitute s other) := by
  refine ⟨?_, h.respelled.substitute hwritten⟩
  cases written with
  | nil => exact h.ne_nil
  | cons first rest =>
      rw [Route.substitute]
      split
      · exact List.append_ne_nil_of_left_ne_nil h.ne_nil _
      · exact List.append_ne_nil_of_left_ne_nil (withArgs_ne_nil h.ne_nil _) _

/-- A route that is taken as it is written is found with **the root that its first
name stands for**. -/
theorem Found.literal {first other : Step} {rest more : Route}
    (h : Written σ (first :: rest) (other :: more)) :
    Found σ (Names.literal (first :: rest)) (Names.literal (other :: more)) := by
  refine ⟨?_, h.literal⟩
  rw [Names.literal]
  split <;> exact List.cons_ne_nil _ _

/-- What is found names the same type in another spelling. -/
theorem Found.type (h : Found σ r s) : r.type.Respelled σ s.type :=
  .mk (Spelling.path_joinPath h.respelled.map_name (by simpa using h.ne_nil)) h.respelled.lastArgs

/-! ### The start of a written route -/

section Start

variable {first other : Step} {rest more : Route} (h : Written σ (first :: rest) (other :: more))

include h

/-- Behind its first step a written route is **in the other spelling**. -/
theorem Written.tail : rest.Respelled σ more := by
  cases h with
  | same h =>
      cases h with
      | cons _ hrest => exact hrest
  | root _ _ _ _ hrest => exact hrest

/-- The first letter of a written route is small **in both spellings or in neither**. -/
theorem Written.startsLower_eq : Names.startsLower first.name = Names.startsLower other.name := by
  have hroots : ∀ root ∈ standardRoots, Names.startsLower root = true := by decide
  cases h with
  | same h =>
      cases h with
      | cons hstep _ => exact hstep.name.startsLower_eq
  | root _ hfirst hother _ _ => rw [hroots _ hfirst, hroots _ hother]

/-- The first step is a word for a module around, or for a type, in both spellings or in neither. -/
theorem Written.beq_word {word : String} (hword : word ∈ pathWords) :
    (first.name == word) = (other.name == word) := by
  have hwords : ∀ word ∈ pathWords, word ∈ knownNames ∧
      ∀ root ∈ standardRoots, (root == word) = false := by decide
  obtain ⟨hknown, hroots⟩ := hwords word hword
  cases h with
  | same h =>
      cases h with
      | cons hstep _ => exact hstep.name.beq_known hknown
  | root _ hfirst hother _ _ => rw [hroots _ hfirst, hroots _ hother]

/-- The first step is one that globs are **never asked for** in both spellings or in neither. -/
theorem Written.isRoot_eq :
    (primitives.contains first.name || pathRoots.contains first.name) =
      (primitives.contains other.name || pathRoots.contains other.name) := by
  have hroots : ∀ root ∈ standardRoots,
      (primitives.contains root || pathRoots.contains root) = true := by decide
  cases h with
  | same h =>
      cases h with
      | cons hstep _ =>
          rw [hstep.name.contains_known (by decide), hstep.name.contains_known (by decide)]
  | root _ hfirst hother _ _ => rw [hroots _ hfirst, hroots _ hother]

/-- What does not start with a root has **no root exchanged**. -/
theorem Written.respelled
    (hroot : ¬(primitives.contains other.name || pathRoots.contains other.name) = true) :
    Respelled σ (first :: rest) (other :: more) := by
  have hroots : ∀ root ∈ standardRoots,
      (primitives.contains root || pathRoots.contains root) = true := by decide
  cases h with
  | same h => exact h
  | root _ _ hother _ _ => exact absurd (hroots _ hother) hroot

end Start

end Route

end CapabilityGate
