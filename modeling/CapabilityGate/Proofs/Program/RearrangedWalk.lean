import CapabilityGate.Proofs.Program.AlikeWalks
import CapabilityGate.Proofs.Program.Rearrangement

/-!
# What rearranged programs declare and mention

The two walks over a program take its parts as they come, and pass nothing from one part on to
the next. So over a program with its items moved they meet the same declarations and the same
mentions, though in another order.

## Main definitions

* `Declaration.Rearranged`, `MentionedAlike`: what the walks meet, up to rearrangement.

## Main results

* `Part.Rearranged.components`: rearranged parts are made of rearranged parts.
* `SourceFile.Rearranged.declared`: rearrangements declare the same.
* `SourceFile.Rearranged.mentioned`: rearrangements mention the same.
-/

namespace CapabilityGate.Program

open List (Forall₂)

/-! ### What rearranged parts are made of -/

/-- Parts that are rearranged in place are rearranged **one by one**. -/
theorem PartsInPlace.forall₂ : ∀ {as bs : List Part}, PartsInPlace as bs →
    Forall₂ Part.Rearranged as bs
  | _, _, .nil => .nil
  | _, _, .cons h hrest => .cons h hrest.forall₂

/-- Rearranged parts match **in any order**. -/
theorem PartsRearranged.matched {as bs : List Part} (h : PartsRearranged as bs) :
    Matched Part.Rearranged as bs := by
  cases h with
  | mk h hmoved => exact (Matched.of_forall₂ h.forall₂).perm hmoved.perm

/-- Rearranged expressions match as parts. -/
theorem ExprsRearranged.matched : ∀ {es fs : List Expr}, ExprsRearranged es fs →
    Matched Part.Rearranged (es.map .expr) (fs.map .expr)
  | _, _, .nil => .nil
  | _, _, .cons h hrest => hrest.matched.cons (.expr h)

/-- The arguments of rearranged segments match. -/
theorem SegmentsRearranged.matched : ∀ {ss ts : List Segment}, SegmentsRearranged ss ts →
    Matched Part.Rearranged (ss.flatMap Segment.args) (ts.flatMap Segment.args)
  | _, _, .nil => .nil
  | _, _, .cons h hrest => h.matched.append hrest.matched

/-- Of rearranged expressions the attributes are passed over alike. -/
theorem Expr.Rearranged.hidesAttributes_eq {e f : Expr} (h : e.Rearranged f) :
    Mentions.hidesAttributes e = Mentions.hidesAttributes f := by
  cases h <;> rfl

/-- Rearranged parts **are made of rearranged parts** in the same roles. -/
theorem Part.Rearranged.components {x y : Part} (h : x.Rearranged y) :
    Matched (InRole Part.Rearranged) x.components y.components := by
  have hone : ∀ {role : Role} {a b : Part}, a.Rearranged b →
      Matched (InRole Part.Rearranged) [(role, a)] [(role, b)] :=
    fun hab => .singleton ⟨rfl, hab⟩
  have heach : ∀ {as bs : List Part}, Matched Part.Rearranged as bs → ∀ role : Role,
      Matched (InRole Part.Rearranged) (role.each as) (role.each bs) :=
    comparesLists_matched.each
  cases h with
  | type h =>
      cases h with
      | path h => exact hone (.path h)
      | wrapped h => exact hone (.type h)
      | other h => exact heach h.matched _
  | expr h =>
      cases h with
      | path h => exact hone (.path h)
      | qualified howner h => exact (hone (.path h)).cons ⟨rfl, .type howner⟩
      | call h hargs => exact (heach hargs.matched _).cons ⟨rfl, .expr h⟩
      | method h hturbofish hargs =>
          exact ((heach hturbofish.matched _).append (heach hargs.matched _)).cons ⟨rfl, .expr h⟩
      | paren h => exact hone (.expr h)
      | reference h => exact hone (.expr h)
      | tried h => exact hone (.expr h)
      | construct howner h hfields =>
          exact (heach howner.matched _).append ((heach hfields.matched _).cons ⟨rfl, .path h⟩)
      | invoke h => exact hone (.invoke h)
      | attributed hattributes h =>
          rw [Part.components, Part.components, h.hidesAttributes_eq]
          exact (heach hattributes.matched _).append (hone (.expr h))
      | compound h => exact heach h.matched _
  | pattern h =>
      cases h with
      | bind h => exact heach h.matched _
      | typed hattributes h htype =>
          exact (heach hattributes.matched _).append ((hone (.type htype)).cons ⟨rfl, .pattern h⟩)
      | compound h => exact heach h.matched _
  | item h =>
      cases h with
      | use h => exact heach h.matched _
      | externCrate h => exact heach h.matched _
      | typeAlias h htype => exact (heach h.matched _).append (hone (.type htype))
      | declaration h => exact heach h.matched _
      | module h => exact heach h.matched _
      | implementation h htype hmembers =>
          exact (heach h.matched _).append ((heach hmembers.matched _).cons ⟨rfl, .type htype⟩)
      | other h => exact heach h.matched _
  | path h =>
      cases h with
      | mk h => exact heach h.matched _
  | invoke h =>
      cases h with
      | list h => exact heach h.matched _
      | raw h => exact .nil
  | binding hattributes h hvalues =>
      exact (heach hattributes.matched _).append ((heach hvalues.matched _).cons ⟨rfl, .pattern h⟩)
  | group h => exact heach h.matched _

/-! ### Declarations -/

/-- A declaration is a **rearrangement** of another one when they are the same, but for the type
that a name is given to, which may be rearranged. -/
inductive Declaration.Rearranged : Declaration → Declaration → Prop
  | same (d : Declaration) : Declaration.Rearranged d d
  | typeAlias {module : List String} {name : String} {s t : Ty} (h : s.Rearranged t) :
      Declaration.Rearranged ⟨module, .typeAlias name s⟩ ⟨module, .typeAlias name t⟩

/-- Rearranged parts **declare the same themselves**, and their parts stand in the same module. -/
theorem Part.Rearranged.declares {x y : Part} (h : x.Rearranged y) (module : List String) :
    Matched Declaration.Rearranged (x.declares module) (y.declares module) ∧
      x.moduleWithin module = y.moduleWithin module := by
  cases h with
  | item h =>
      cases h with
      | typeAlias h htype => exact ⟨.singleton (.typeAlias htype), rfl⟩
      | implementation h htype hmembers => exact ⟨.nil, rfl⟩
      | other h => exact ⟨.nil, rfl⟩
      | _ => exact ⟨.singleton (.same _), rfl⟩
  | type h => cases h <;> exact ⟨.nil, rfl⟩
  | expr h => cases h <;> exact ⟨.nil, rfl⟩
  | pattern h => cases h <;> exact ⟨.nil, rfl⟩
  | _ => exact ⟨.nil, rfl⟩

/-- The walk for declarations **keeps** rearrangement. -/
theorem declarationWalk_keeps_rearranged :
    declarationWalk.Keeps (fun _ => Matched) Declaration.Rearranged
      (fun s t => s.1 = t.1 ∧ s.2.Rearranged t.2) := by
  rintro ⟨module, x⟩ ⟨_, y⟩ ⟨rfl, h⟩
  obtain ⟨hown, hmodule⟩ := h.declares module
  exact ⟨_, _, rfl, Nat.le_refl _, rfl, hown,
    declarationWalk_next comparesLists_matched hmodule h.components⟩

/-- Rearranged programs **declare the same**, each declaration up to rearrangement. -/
theorem SourceFile.Rearranged.declared {p q : SourceFile} (h : p.Rearranged q) :
    Matched Declaration.Rearranged p.declarations q.declarations :=
  declarationWalk_keeps_rearranged.declarations comparesLists_matched rfl h.matched

/-! ### Mentions -/

/-- A place is a **rearrangement** of another one when they are the same, but for the type whose
implementation is around them, which may be rearranged. -/
inductive Place.Rearranged : Place → Place → Prop
  | free {module : List String} : Place.Rearranged ⟨module, none⟩ ⟨module, none⟩
  | owned {module above : List String} {s t : Ty} (h : s.Rearranged t) :
      Place.Rearranged ⟨module, some (above, s)⟩ ⟨module, some (above, t)⟩

/-- A mention is a **rearrangement** of another one when they are the same up to what is
rearranged within them, and to places. -/
inductive Mention.Rearranged : Mention → Mention → Prop
  | path {called : Bool} {at_ other : Position} {p q : Path} (h : p.Rearranged q) :
      Mention.Rearranged (.path called at_ p) (.path called other q)
  | qualified {called : Bool} {at_ other : Position} {s t : Ty} {position : Nat} {p q : Path}
      (howner : s.Rearranged t) (h : p.Rearranged q) :
      Mention.Rearranged (.qualified called at_ s position p) (.qualified called other t position q)
  | method {e f : Expr} {name : String} {at_ other : Position} (h : e.Rearranged f) :
      Mention.Rearranged (.method e name at_) (.method f name other)
  | tokens {ts us : List Token} (h : TokensReadAlike ts us) :
      Mention.Rearranged (.tokens ts) (.tokens us)
  | typed {name : String} {s t : Ty} (h : s.Rearranged t) :
      Mention.Rearranged (.typed name s) (.typed name t)
  | bound {name : String} {e f : Expr} (h : e.Rearranged f) :
      Mention.Rearranged (.bound name e) (.bound name f)

/-- Two mentions are **alike** when they and their places are rearrangements of each other. -/
structure MentionedAlike (a b : Place × Mention) : Prop where
  /-- The places are. -/
  place : a.1.Rearranged b.1
  /-- What is mentioned there is. -/
  mention : a.2.Rearranged b.2

theorem Place.Rearranged.refl (place : Place) : place.Rearranged place := by
  obtain ⟨module, owner⟩ := place
  cases owner with
  | none => exact .free
  | some owner =>
      obtain ⟨above, t⟩ := owner
      exact .owned (Ty.Rearranged.refl t)

/-- Rearranged places stand in one module. -/
theorem Place.Rearranged.module_eq {a b : Place} (h : a.Rearranged b) : a.module = b.module := by
  cases h <;> rfl

/-- Rearranged places stand in rearranged places of a module below. -/
theorem Place.Rearranged.below {a b : Place} (h : a.Rearranged b) (name : String) :
    Place.Rearranged ⟨a.module ++ [name], a.owner⟩ ⟨b.module ++ [name], b.owner⟩ := by
  cases h with
  | free => exact .free
  | owned h => exact .owned h

/-- Rearranged places stand in rearranged implementations of rearranged types. -/
theorem Place.Rearranged.within {a b : Place} (h : a.Rearranged b) {s t : Ty}
    (htype : s.Rearranged t) :
    Place.Rearranged ⟨a.module, some (a.module, s)⟩ ⟨b.module, some (b.module, t)⟩ := by
  rw [h.module_eq]
  exact .owned htype

section Mentioned

open Mentions

/-- Rearranged patterns bind the same name. -/
theorem Pat.Rearranged.binder?_eq {x y : Pat} (h : x.Rearranged y) : binder? x = binder? y := by
  cases h <;> rfl

/-- Rearranged patterns with types bind alike. -/
theorem Pat.Rearranged.ofTyped {a b : Place} (hplace : a.Rearranged b) {x y : Pat}
    (h : x.Rearranged y) {s t : Ty} (htype : s.Rearranged t) :
    Matched MentionedAlike (Mentions.ofTyped a x s) (Mentions.ofTyped b y t) := by
  rw [Mentions.ofTyped, Mentions.ofTyped, h.binder?_eq]
  cases binder? y with
  | none => exact .nil
  | some name => exact .singleton ⟨hplace, .typed htype⟩

/-- Rearranged `let` statements bind alike. -/
theorem Pat.Rearranged.ofBinding {a b : Place} (hplace : a.Rearranged b) {x y : Pat}
    (h : x.Rearranged y) {es fs : List Expr} (hvalues : ExprsRearranged es fs) :
    Matched MentionedAlike (Mentions.ofBinding a x es) (Mentions.ofBinding b y fs) := by
  unfold Mentions.ofBinding
  rw [h.binder?_eq]
  cases binder? y with
  | none => exact .nil
  | some name =>
      cases hvalues with
      | nil => exact .nil
      | cons h hrest => exact .singleton ⟨hplace, .bound h⟩

/-- Rearranged parts **mention the same themselves**. -/
theorem Part.Rearranged.mentions {x y : Part} (h : x.Rearranged y) {a b : Place}
    (hplace : a.Rearranged b) (called : Bool) :
    Matched MentionedAlike (x.mentions a called) (y.mentions b called) := by
  cases h with
  | type h => cases h <;> exact .nil
  | expr h =>
      cases h with
      | path h => exact .singleton ⟨hplace, .path h⟩
      | qualified howner h => exact .singleton ⟨hplace, .qualified howner h⟩
      | method h _ _ => exact .singleton ⟨hplace, .method h⟩
      | _ => exact .nil
  | pattern h =>
      cases h with
      | typed _ h htype => exact Pat.Rearranged.ofTyped hplace h htype
      | _ => exact .nil
  | item h => cases h <;> exact .nil
  | invoke h =>
      cases h with
      | list h => exact .nil
      | raw h => exact .singleton ⟨hplace, .tokens h⟩
  | binding _ h hvalues => exact Pat.Rearranged.ofBinding hplace h hvalues
  | _ => exact .nil

/-- The parts of rearranged parts stand in rearranged places. -/
theorem Part.Rearranged.placeWithin {x y : Part} (h : x.Rearranged y) {a b : Place}
    (hplace : a.Rearranged b) : (x.placeWithin a).Rearranged (y.placeWithin b) := by
  cases h with
  | item h =>
      cases h with
      | module _ => exact hplace.below _
      | implementation _ htype _ => exact hplace.within htype
      | _ => exact hplace
  | type h => cases h <;> exact hplace
  | expr h => cases h <;> exact hplace
  | pattern h => cases h <;> exact hplace
  | _ => exact hplace

/-- The walk for mentions **keeps** rearrangement. -/
theorem mentionWalk_keeps_rearranged :
    mentionWalk.Keeps (fun _ => Matched) MentionedAlike
      (StopsAlike Place.Rearranged fun _ => Part.Rearranged) := by
  rintro ⟨a, called, x⟩ ⟨b, _, y⟩ ⟨hplace, rfl, h⟩
  exact ⟨_, _, rfl, Nat.le_refl _, rfl, h.mentions hplace called,
    mentionWalk_next comparesLists_matched (h.placeWithin hplace) h.components⟩

end Mentioned

/-- Rearranged programs **mention the same**, each mention up to rearrangement. -/
theorem SourceFile.Rearranged.mentioned {p q : SourceFile} (h : p.Rearranged q) :
    Matched MentionedAlike p.mentions q.mentions :=
  mentionWalk_keeps_rearranged.mentions comparesLists_matched .free h.matched

end CapabilityGate.Program
