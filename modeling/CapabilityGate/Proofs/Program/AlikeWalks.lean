import CapabilityGate.Proofs.Program.DeclaredItems
import CapabilityGate.Proofs.Program.Matching

/-!
# Walks over programs that are alike

Both walks over a program have one shape: where a walk stands it meets something, and then it goes
on to what stands there, one after the other. When two programs are related, it is enough to look at
one step. If related parts meet the same and are made of related parts, up to what may differ in
them, then all that is met is the same up to that. The induction over the tree is made here, once
for all relations between programs.

## Main definitions

* `Walk`: what is met from a spot on, said for one step.
* `Walk.Keeps`: a relation between spots that each step of a walk keeps.
* `declarationWalk`, `mentionWalk`: the two walks over a program.

## Main results

* `Walk.Keeps.run`: from related spots on, a walk meets related things.
* `declarationWalk_next`, `mentionWalk_next`: both walks go on to related spots if the parts are
  made of related parts.
* `Walk.Keeps.declarations`, `Walk.Keeps.mentions`: what holds of each step holds of programs.
-/

namespace CapabilityGate.Program

/-! ### Walks -/

/-- A **walk** from spot to spot over a tree. -/
structure Walk (Spot Met : Type) where
  /-- All that is met from a spot on. -/
  run : Spot → List Met
  /-- What is met at a spot itself. -/
  own : Spot → List Met
  /-- The spots that the walk goes on to, in order. -/
  next : Spot → List Spot
  /-- How much stands at a spot. -/
  size : Spot → Nat
  /-- First is met what stands at the spot, and then what is met from the next ones on. -/
  run_eq : ∀ s, run s = own s ++ (next s).flatMap run
  /-- Less stands at the next spots. -/
  size_lt : ∀ s, ∀ t ∈ next s, size t < size s

/-- A relation between spots is **kept** by a walk when at related spots it meets related things and
goes on to related spots. Either spot may be exchanged before for one from which the same is met and
where no more stands. -/
def Walk.Keeps {Spot Met : Type} (w : Walk Spot Met)
    (F : (α : Type) → (α → α → Prop) → List α → List α → Prop) (S : Met → Met → Prop)
    (R : Spot → Spot → Prop) : Prop :=
  ∀ s t, R s t → ∃ s' t', w.run s' = w.run s ∧ w.size s' ≤ w.size s ∧ w.run t' = w.run t ∧
    F Met S (w.own s') (w.own t') ∧ F Spot R (w.next s') (w.next t')

/-- From related spots on a walk meets **related things**, if each of its steps keeps the
relation. -/
theorem Walk.Keeps.run {Spot Met : Type} {w : Walk Spot Met}
    {F : (α : Type) → (α → α → Prop) → List α → List α → Prop} {S : Met → Met → Prop}
    {R : Spot → Spot → Prop} (h : w.Keeps F S R) (hF : ComparesLists F) {s t : Spot}
    (hst : R s t) : F Met S (w.run s) (w.run t) := by
  obtain ⟨s', t', hs, hsize, ht, hown, hnext⟩ := h s t hst
  rw [← hs, ← ht, w.run_eq s', w.run_eq t']
  refine hF.append hown (hF.flatMap hnext fun s₁ hs₁ t₁ hst₁ => ?_)
  have hsmaller := w.size_lt s' s₁ hs₁
  exact h.run hF hst₁
termination_by w.size s

variable {F : (α : Type) → (α → α → Prop) → List α → List α → Prop}

/-- Two parts of parts have **one role** and are related. -/
def InRole (R : Part → Part → Prop) (c d : Role × Part) : Prop :=
  c.1 = d.1 ∧ R c.2 d.2

/-- Related parts that have all one role are related in it. -/
theorem ComparesLists.each (hF : ComparesLists F) {R : Part → Part → Prop} {as bs : List Part}
    (h : F Part R as bs) (role : Role) : F _ (InRole R) (role.each as) (role.each bs) :=
  hF.map h fun _ _ hab => ⟨rfl, hab⟩

/-! ### The walk for declarations -/

/-- The **walk for declarations**, from part to part, each in a module. -/
noncomputable def declarationWalk : Walk (List String × Part) Declaration where
  run s := Declaration.inPart s.1 s.2
  own s := s.2.declares s.1
  next s := (s.2.components.filter fun c => c.1.isDeclared).map fun c =>
    (s.2.moduleWithin s.1, c.2)
  size s := sizeOf s.2
  run_eq s := by
    rw [Declaration.inPart_eq, Declaration.inParts_eq_flatMap, Part.entered_eq,
      List.flatMap_map, List.flatMap_map]
  size_lt s t ht := by
    obtain ⟨c, hc, rfl⟩ := List.mem_map.mp ht
    exact sizeOf_lt_of_mem_components (List.mem_filter.mp hc).1

/-- The walk for declarations goes on to related spots if the modules are related and the parts are
**made of related parts**. -/
theorem declarationWalk_next (hF : ComparesLists F) {M : List String → List String → Prop}
    {R : Part → Part → Prop} {m m' : List String} {x y : Part}
    (hmodule : M (x.moduleWithin m) (y.moduleWithin m'))
    (h : F _ (InRole R) x.components y.components) :
    F _ (fun s t => M s.1 t.1 ∧ R s.2 t.2) (declarationWalk.next (m, x))
      (declarationWalk.next (m', y)) :=
  hF.map (hF.filter h fun _ _ hcd => congrArg Role.isDeclared hcd.1) fun _ _ hcd =>
    ⟨hmodule, hcd.2⟩

/-- Programs made of related parts **declare related things**, if the walk for declarations keeps
the relation. -/
theorem Walk.Keeps.declarations {S : Declaration → Declaration → Prop}
    {M : List String → List String → Prop} {R : Part → Part → Prop}
    (h : declarationWalk.Keeps F S fun s t => M s.1 t.1 ∧ R s.2 t.2) (hF : ComparesLists F)
    (hroot : M [] []) {p q : SourceFile} (hparts : F Part R p.parts q.parts) :
    F Declaration S p.declarations q.declarations := by
  rw [Declaration.declarations_eq_inParts, Declaration.declarations_eq_inParts,
    Declaration.inParts_eq_flatMap, Declaration.inParts_eq_flatMap]
  refine hF.flatMap hparts fun a _ b hab => ?_
  change F _ S (declarationWalk.run ([], a)) (declarationWalk.run ([], b))
  exact h.run hF ⟨hroot, hab⟩

/-! ### The walk for mentions -/

/-- Where the **walk for mentions** stands. -/
structure Stop where
  /-- The place. -/
  place : Place
  /-- Whether what stands there is called, if it is an expression. -/
  called : Bool
  /-- What stands there. -/
  part : Part

/-- What a part **mentions itself**, before anything that the walk goes on to. -/
def Part.mentions (place : Place) (called : Bool) : Part → List (Place × Mention)
  | .expr (.path at_ p) => [(place, .path called at_ p)]
  | .expr (.qualified at_ owner position p) => [(place, .qualified called at_ owner position p)]
  | .expr (.method receiver name at_ _ _) => [(place, .method receiver name.text at_)]
  | .pattern (.typed _ inner t) => Mentions.ofTyped place inner t
  | .invoke (.mk _ _ tokens .raw) => [(place, .tokens tokens)]
  | .binding _ inner values => Mentions.ofBinding place inner values
  | _ => []

open Mentions

/-- The walk for mentions goes through parts that are **not called** one after the other. -/
theorem flatMap_each {role : Role} (h : ∀ called, role.isCalled called = false) (place : Place)
    (called : Bool) (parts : List Part) :
    ((role.each parts).map fun c => (⟨place, c.1.isCalled called, c.2⟩ : Stop)).flatMap
      (fun s => inPartAs s.place s.called s.part) = inParts place parts := by
  induction parts with
  | nil => rw [inParts]; rfl
  | cons part rest ih =>
      rw [inParts, ← ih]
      simp [Role.each, h, inPartAs_false]

section

attribute [local simp] inParts inPart Part.mentions Part.components Part.placeWithin
  Role.filter_each inPartAs_false inParts_exprs

/-- At each part the walk for mentions meets **what the part mentions itself**, and then what is
mentioned in what it goes on to. -/
theorem inPartAs_eq_mentions (place : Place) (called : Bool) (part : Part) :
    inPartAs place called part = part.mentions place called ++
      ((part.components.filter fun c => c.1.isMentioned).map fun c =>
        (⟨part.placeWithin place, c.1.isCalled called, c.2⟩ : Stop)).flatMap
          fun s => inPartAs s.place s.called s.part := by
  have hexpr : ∀ place called e, inPartAs place called (.expr e) = inExpr place called e :=
    fun _ _ _ => rfl
  have hplain := @flatMap_each .plain fun _ => rfl
  have hundeclared := @flatMap_each .undeclared fun _ => rfl
  cases part with
  | expr e =>
      cases e with
      | attributed attributes inner =>
          cases h : hidesAttributes inner <;> simp +decide [hexpr, hplain, inExpr, h]
      | _ => simp +decide [hexpr, hplain, hundeclared, inExpr]
  | type t =>
      change inType place t = _
      cases t <;> simp +decide [hplain, inType]
  | pattern x =>
      change inPattern place x = _
      cases x <;> simp +decide [hplain, inPattern]
  | item i =>
      change inItem place i = _
      cases i with
      | declaration kind name parts =>
          cases h : kind.isEntered <;> simp +decide [hplain, hundeclared, inItem, h]
      | _ => simp +decide [hplain, hundeclared, inItem]
  | path p =>
      obtain ⟨global, segments⟩ := p
      change inSegments place segments = _
      simp +decide [hplain, inSegments_eq_inParts]
  | invoke i =>
      obtain ⟨name, braced, tokens, reading⟩ := i
      change inReading place tokens reading = _
      cases reading <;> simp +decide [hundeclared, inReading]
  | binding attributes x values =>
      change ofBinding place x values ++ inParts place attributes ++ inPattern place x ++
        inExprs place values = _
      simp +decide [hplain]
  | group parts =>
      change inParts place parts = _
      simp +decide [hplain]

end

/-- The **walk for mentions**, from part to part. -/
noncomputable def mentionWalk : Walk Stop (Place × Mention) where
  run s := inPartAs s.place s.called s.part
  own s := s.part.mentions s.place s.called
  next s := (s.part.components.filter fun c => c.1.isMentioned).map fun c =>
    ⟨s.part.placeWithin s.place, c.1.isCalled s.called, c.2⟩
  size s := sizeOf s.part
  run_eq s := inPartAs_eq_mentions s.place s.called s.part
  size_lt s t ht := by
    obtain ⟨c, hc, rfl⟩ := List.mem_map.mp ht
    exact sizeOf_lt_of_mem_components (List.mem_filter.mp hc).1

/-- Two stops of the walk for mentions are **alike** when their places are, both are called or
neither is, and what stands there is alike. -/
structure StopsAlike (P : Place → Place → Prop) (R : Bool → Part → Part → Prop) (s t : Stop) :
    Prop where
  /-- The places are alike. -/
  place : P s.place t.place
  /-- What stands there is called at both or at neither. -/
  called : s.called = t.called
  /-- It is alike, called or not. -/
  part : R s.called s.part t.part

/-- The walk for mentions goes on to stops that are alike if the places are and the parts are **made
of parts that are alike**. -/
theorem mentionWalk_next (hF : ComparesLists F) {P : Place → Place → Prop}
    {R : Bool → Part → Part → Prop} {a b : Place} {called : Bool} {x y : Part}
    (hplace : P (x.placeWithin a) (y.placeWithin b))
    (h : F _ (fun c d => c.1 = d.1 ∧ R (c.1.isCalled called) c.2 d.2) x.components y.components) :
    F _ (StopsAlike P R) (mentionWalk.next ⟨a, called, x⟩) (mentionWalk.next ⟨b, called, y⟩) :=
  hF.map (hF.filter h fun _ _ hcd => congrArg Role.isMentioned hcd.1) fun _ _ hcd =>
    ⟨hplace, congrArg (Role.isCalled called) hcd.1, hcd.2⟩

/-- Programs made of related parts **mention related things**, if the walk for mentions keeps the
relation. -/
theorem Walk.Keeps.mentions {S : Place × Mention → Place × Mention → Prop}
    {P : Place → Place → Prop} {R : Bool → Part → Part → Prop}
    (h : mentionWalk.Keeps F S (StopsAlike P R)) (hF : ComparesLists F)
    (hroot : P ⟨[], none⟩ ⟨[], none⟩) {p q : SourceFile}
    (hparts : F Part (R false) p.parts q.parts) :
    F (Place × Mention) S p.mentions q.mentions := by
  have hflat : ∀ parts : List Part, inParts ⟨[], none⟩ parts =
      parts.flatMap fun part => mentionWalk.run ⟨⟨[], none⟩, false, part⟩ := by
    intro parts
    induction parts with
    | nil => rw [inParts, List.flatMap_nil]
    | cons part rest ih => rw [inParts, ih, List.flatMap_cons, ← inPartAs_false]; rfl
  rw [mentions_eq_inParts, mentions_eq_inParts, hflat, hflat]
  exact hF.flatMap hparts fun a _ b hab => h.run hF ⟨hroot, rfl, hab⟩

end CapabilityGate.Program
