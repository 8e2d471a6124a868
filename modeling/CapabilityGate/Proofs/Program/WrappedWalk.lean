import CapabilityGate.Proofs.Program.AlikeWalks
import CapabilityGate.Proofs.Program.Wrapping

/-!
# What programs with wrapped expressions declare and mention

The walk for declarations passes over what a macro is given, and the walk for mentions goes into
it. So wrapping an expression that declares nothing changes neither what is declared nor what is
mentioned, and not the order of either.

## Main definitions

* `Declaration.Wrapped`, `MentionedInWrapped`: what the walks meet, up to wrapping.
* `Part.WrappedWithin`: a part in which expressions are wrapped, but which is not wrapped itself.

## Main results

* `Expr.Wrapped.unwrapped`: an expression out of all macros that are wrapped around it.
* `SourceFile.Wrapped.declared`: carefully wrapped programs declare the same in the same order.
* `SourceFile.Wrapped.mentioned`: and mention the same in the same order.
-/

namespace CapabilityGate.Program

open List (Forall₂ rel_append)
open Mentions

/-! ### Declarations and mentions with expressions wrapped -/

/-- A declaration is another one with expressions **wrapped**: they are the same, but for the type
that a name is given to. -/
inductive Declaration.Wrapped : Declaration → Declaration → Prop
  | same (d : Declaration) : Declaration.Wrapped d d
  | typeAlias {module : List String} {name : String} {s t : Ty} (h : s.Wrapped true t) :
      Declaration.Wrapped ⟨module, .typeAlias name s⟩ ⟨module, .typeAlias name t⟩

/-- A place is another one with expressions **wrapped**: they are the same, but for the type whose
implementation is around them. -/
inductive Place.Wrapped : Place → Place → Prop
  | free {module : List String} : Place.Wrapped ⟨module, none⟩ ⟨module, none⟩
  | owned {module above : List String} {s t : Ty} (h : s.Wrapped true t) :
      Place.Wrapped ⟨module, some (above, s)⟩ ⟨module, some (above, t)⟩

/-- A mention is another one with expressions **wrapped** in it, at whatever place. What is looked
at in it has kept its form. -/
inductive Mention.Wrapped : Mention → Mention → Prop
  | path {called : Bool} {at_ other : Position} {p q : Path} (h : p.Wrapped true q) :
      Mention.Wrapped (.path called at_ p) (.path called other q)
  | qualified {called : Bool} {at_ other : Position} {s t : Ty} {position : Nat} {p q : Path}
      (howner : s.Wrapped true t) (h : p.Wrapped true q) :
      Mention.Wrapped (.qualified called at_ s position p) (.qualified called other t position q)
  | method {e f : Expr} {name : String} {at_ other : Position}
      (hreceiver : e.isLoneName = f.isLoneName) (h : e.Wrapped true f) :
      Mention.Wrapped (.method e name at_) (.method f name other)
  | tokens {ts us : List Token} (h : TokensReadAlike ts us) :
      Mention.Wrapped (.tokens ts) (.tokens us)
  | typed {name : String} {s t : Ty} (h : s.Wrapped true t) :
      Mention.Wrapped (.typed name s) (.typed name t)
  | bound {name : String} {e f : Expr} (hvalue : e.makesValue = f.makesValue)
      (h : e.Wrapped true f) : Mention.Wrapped (.bound name e) (.bound name f)

/-- Two mentions are **the same up to wrapping** when they and their places are. -/
structure MentionedInWrapped (a b : Place × Mention) : Prop where
  /-- The places are. -/
  place : a.1.Wrapped b.1
  /-- What is mentioned there is. -/
  mention : a.2.Wrapped b.2

/-- Wrapping moves nothing into another module. -/
theorem Place.Wrapped.module_eq {a b : Place} (h : a.Wrapped b) : a.module = b.module := by
  cases h <;> rfl

/-- Wrapping leaves the place in a module below. -/
theorem Place.Wrapped.below {a b : Place} (h : a.Wrapped b) (name : String) :
    Place.Wrapped ⟨a.module ++ [name], a.owner⟩ ⟨b.module ++ [name], b.owner⟩ := by
  cases h with
  | free => exact .free
  | owned h => exact .owned h

/-- Wrapping leaves the place in the implementation of a type. -/
theorem Place.Wrapped.within {a b : Place} (h : a.Wrapped b) {s t : Ty} (htype : s.Wrapped true t) :
    Place.Wrapped ⟨a.module, some (a.module, s)⟩ ⟨b.module, some (b.module, t)⟩ := by
  rw [h.module_eq]
  exact .owned htype

/-- Patterns with types bind the same up to wrapping. -/
theorem Pat.Wrapped.ofTyped {a b : Place} (hplace : a.Wrapped b) {x y : Pat}
    (h : x.Wrapped true y) {s t : Ty} (htype : s.Wrapped true t) :
    Forall₂ MentionedInWrapped (Mentions.ofTyped a x s) (Mentions.ofTyped b y t) := by
  rw [Mentions.ofTyped, Mentions.ofTyped, h.binder?_eq]
  cases binder? y with
  | none => exact .nil
  | some name => exact .cons ⟨hplace, .typed htype⟩ .nil

/-- A `let` statement binds the same up to wrapping, if its initialiser shows a type as before. -/
theorem Pat.Wrapped.ofBinding {a b : Place} (hplace : a.Wrapped b) {x y : Pat}
    (h : x.Wrapped true y) {es fs : List Expr}
    (hvalue : (binder? x).isSome = true → firstMakesValue es = firstMakesValue fs)
    (hvalues : ExprsWrapped true es fs) :
    Forall₂ MentionedInWrapped (Mentions.ofBinding a x es) (Mentions.ofBinding b y fs) := by
  unfold Mentions.ofBinding
  rw [h.binder?_eq] at hvalue ⊢
  cases hbinder : binder? y with
  | none => exact .nil
  | some name =>
      cases hvalues with
      | nil => exact .nil
      | cons h hrest =>
          rw [hbinder] at hvalue
          exact .cons ⟨hplace, .bound (hvalue rfl) h⟩ .nil

/-! ### What wrapped parts are made of -/

/-- Whether a part is an expression that is a path. -/
def Part.isPath : Part → Bool
  | .expr e => e.isPath
  | _ => false

/-- A part is another one with expressions wrapped, and if it is `called`, then it is a path as
before or none as before. -/
structure Part.WrappedAs (called : Bool) (x y : Part) : Prop where
  /-- Expressions are wrapped in it. -/
  wrapped : x.Wrapped true y
  /-- If it is called, it is a path as before. -/
  callee : called = true → x.isPath = y.isPath

/-- Parts of parts are the same up to wrapping, in one role, in a part that may be `called`. -/
def WrappedInRole (called : Bool) (c d : Role × Part) : Prop :=
  c.1 = d.1 ∧ c.2.WrappedAs (c.1.isCalled called) d.2

/-- Parts with expressions wrapped in them are so **one by one**. -/
theorem PartsWrapped.forall₂ : ∀ {as bs : List Part}, PartsWrapped true as bs →
    Forall₂ (Part.WrappedAs false) as bs
  | _, _, .nil => .nil
  | _, _, .cons h hrest => .cons ⟨h, nofun⟩ hrest.forall₂

/-- An expression with expressions wrapped in it is so as a part. -/
theorem Expr.Wrapped.part {e f : Expr} (h : e.Wrapped true f) :
    (Part.expr e).Wrapped true (.expr f) :=
  .expr (.expr e) (.expr f) h

/-- Expressions with others wrapped in them are so one by one, as parts. -/
theorem ExprsWrapped.forall₂ : ∀ {es fs : List Expr}, ExprsWrapped true es fs →
    Forall₂ (Part.WrappedAs false) (es.map .expr) (fs.map .expr)
  | _, _, .nil => .nil
  | _, _, .cons h hrest => .cons ⟨h.part, nofun⟩ hrest.forall₂

/-- The arguments of segments with expressions wrapped in them are so one by one. -/
theorem SegmentsWrapped.forall₂ : ∀ {ss ts : List Segment}, SegmentsWrapped true ss ts →
    Forall₂ (Part.WrappedAs false) (ss.flatMap Segment.args) (ts.flatMap Segment.args)
  | _, _, .nil => .nil
  | _, _, .cons h hrest => rel_append h.forall₂ hrest.forall₂

/-- A part has expressions **wrapped within** it, and is not wrapped itself: it meets the same, and
is made of parts in which expressions may be wrapped. -/
structure Part.WrappedWithin (x y : Part) : Prop where
  /-- It is made of such parts in the same roles. -/
  components : ∀ {called : Bool}, (called = true → x.isPath = y.isPath) →
    Forall₂ (WrappedInRole called) x.components y.components
  /-- It declares the same itself. -/
  declares : ∀ module, Forall₂ Declaration.Wrapped (x.declares module) (y.declares module)
  /-- Its parts stand in the same module. -/
  module : ∀ module, x.moduleWithin module = y.moduleWithin module
  /-- It mentions the same itself. -/
  mentions : ∀ {a b : Place} {called : Bool}, a.Wrapped b →
    Forall₂ MentionedInWrapped (x.mentions a called) (y.mentions b called)
  /-- Its parts stand in the same place. -/
  place : ∀ {a b : Place}, a.Wrapped b → (x.placeWithin a).Wrapped (y.placeWithin b)

/-- One part that is not called is made of one that is the same up to wrapping. -/
theorem WrappedInRole.singleton {called : Bool} {role : Role} {x y : Part}
    (h : x.Wrapped true y) (hrole : role.isCalled called = false) :
    Forall₂ (WrappedInRole called) [(role, x)] [(role, y)] :=
  .cons ⟨rfl, h, by rw [hrole]; nofun⟩ .nil

/-- Parts in one role that are not called are the same up to wrapping one by one. -/
theorem WrappedInRole.each {called : Bool} {role : Role} {as bs : List Part}
    (h : Forall₂ (Part.WrappedAs false) as bs) (hrole : role.isCalled called = false) :
    Forall₂ (WrappedInRole called) (role.each as) (role.each bs) :=
  comparesLists_forall₂.map h fun _ _ hab => ⟨rfl, by rw [hrole]; exact hab⟩

/-- A use of a macro has expressions wrapped within it. -/
theorem Invocation.Wrapped.within {i j : Invocation} (h : i.Wrapped true j) :
    (Part.invoke i).WrappedWithin (.invoke j) := by
  cases h with
  | list h =>
      exact ⟨fun _ => WrappedInRole.each h.forall₂ rfl, fun _ => .nil, fun _ => rfl,
        fun _ => .nil, id⟩
  | raw h =>
      exact ⟨fun _ => .nil, fun _ => .nil, fun _ => rfl,
        fun hplace => .cons ⟨hplace, .tokens h⟩ .nil, id⟩

/-- An expression is another one with expressions wrapped **within** it, not itself. A use of a
macro is then one of the same macro. -/
structure Expr.WrappedWithin (e f : Expr) : Prop where
  /-- It is so as a part. -/
  part : (Part.expr e).WrappedWithin (.expr f)
  /-- So is the use of a macro. -/
  invoke : ∀ i, e = .invoke i → ∃ j, f = .invoke j ∧ i.Wrapped true j

/-- An expression is made of parts with expressions wrapped in them, and mentions the same. -/
theorem Expr.WrappedWithin.mk_of {e f : Expr} (hne : ∀ i, e ≠ .invoke i)
    (hcomponents : ∀ {called : Bool}, (called = true → e.isPath = f.isPath) →
      Forall₂ (WrappedInRole called) (Part.expr e).components (Part.expr f).components)
    (hmentions : ∀ {a b : Place} {called : Bool}, a.Wrapped b → Forall₂ MentionedInWrapped
      ((Part.expr e).mentions a called) ((Part.expr f).mentions b called)) :
    e.WrappedWithin f :=
  ⟨⟨hcomponents, fun _ => .nil, fun _ => rfl, hmentions, id⟩, fun i hi => absurd hi (hne i)⟩

/-- An expression **out of all macros** that are wrapped around it has expressions wrapped within
it only. What is mentioned in it then is what is mentioned in the macros. -/
theorem Expr.Wrapped.unwrapped : ∀ {e f : Expr}, e.Wrapped true f → e.WrappedWithin f ∨
    (∃ j, f = .invoke j) ∧ (∀ module, Declaration.inExpr module e = []) ∧
      ∃ g, e.WrappedWithin g ∧ ∀ place, inExpr place false f = inExpr place false g
  | e, _, @Expr.Wrapped.wrap _ _ g _ _ _ hdeclares h => by
    have hinside : ∀ {name : List String} {braced : Bool} {ts : List Token} (place : Place),
        inExpr place false (.invoke (.mk name braced ts (.list [g]))) = inExpr place false g := by
      intro name braced ts place
      rw [inExpr, inInvocation, inReading, inExprs, inExprs, List.append_nil]
    refine .inr ⟨⟨_, rfl⟩, hdeclares rfl, ?_⟩
    rcases h.unwrapped with hwithin | ⟨-, -, g', hwithin, hsame⟩
    · exact ⟨g, hwithin, hinside⟩
    · exact ⟨g', hwithin, fun place => (hinside place).trans (hsame place)⟩
  | _, _, .path h => .inl <| .mk_of nofun (fun _ => WrappedInRole.singleton (.path h) rfl)
      fun hplace => .cons ⟨hplace, .path h⟩ .nil
  | _, _, .qualified howner h => .inl <| .mk_of nofun
      (fun _ => .cons ⟨rfl, .type howner, nofun⟩ (WrappedInRole.singleton (.path h) rfl))
      fun hplace => .cons ⟨hplace, .qualified howner h⟩ .nil
  | _, _, .call hcallee h hargs => .inl <| .mk_of nofun
      (fun _ => .cons ⟨rfl, h.part, fun _ => hcallee rfl⟩ (WrappedInRole.each hargs.forall₂ rfl))
      fun _ => .nil
  | _, _, .method hreceiver h hturbofish hargs => .inl <| .mk_of nofun
      (fun _ => .cons ⟨rfl, h.part, nofun⟩
        (rel_append (WrappedInRole.each hturbofish.forall₂ rfl)
          (WrappedInRole.each hargs.forall₂ rfl)))
      fun hplace => .cons ⟨hplace, .method (hreceiver rfl) h⟩ .nil
  | _, _, .paren h =>
    .inl <| .mk_of nofun (fun _ => WrappedInRole.singleton h.part rfl) fun _ => .nil
  | _, _, .reference h =>
    .inl <| .mk_of nofun (fun _ => WrappedInRole.singleton h.part rfl) fun _ => .nil
  | _, _, .tried h =>
    .inl <| .mk_of nofun (fun _ => WrappedInRole.singleton h.part rfl) fun _ => .nil
  | _, _, .construct howner h hfields => .inl <| .mk_of nofun
      (fun _ => rel_append (WrappedInRole.each howner.forall₂ rfl)
        (.cons ⟨rfl, .path h, nofun⟩ (WrappedInRole.each hfields.forall₂ rfl))) fun _ => .nil
  | _, _, .invoke h => .inl
      ⟨⟨fun _ => WrappedInRole.singleton (.expr (.invoke _) (.invoke _) (.invoke h)) rfl,
        fun _ => .nil, fun _ => rfl, fun _ => .nil, id⟩, fun i hi => ⟨_, rfl, by cases hi; exact h⟩⟩
  | _, _, .attributed hhides hattributes h => .inl <| .mk_of nofun
      (fun hcallee => by
        rw [Part.components, Part.components, hhides rfl]
        exact rel_append (WrappedInRole.each hattributes.forall₂ (by split <;> rfl))
          (.cons ⟨rfl, h.part, hcallee⟩ .nil))
      fun _ => .nil
  | _, _, .compound h =>
    .inl <| .mk_of nofun (fun _ => WrappedInRole.each h.forall₂ rfl) fun _ => .nil

/-- A path has expressions wrapped within it. -/
theorem Path.Wrapped.within {p q : Path} (h : p.Wrapped true q) :
    (Part.path p).WrappedWithin (.path q) := by
  cases h with
  | mk h =>
      exact ⟨fun _ => WrappedInRole.each h.forall₂ rfl, fun _ => .nil, fun _ => rfl,
        fun _ => .nil, id⟩

/-- A type has expressions wrapped within it. -/
theorem Ty.Wrapped.within {s t : Ty} (h : s.Wrapped true t) :
    (Part.type s).WrappedWithin (.type t) := by
  refine ⟨fun _ => ?_, fun _ => .nil, fun _ => rfl, fun _ => .nil, id⟩
  cases h with
  | path h => exact WrappedInRole.singleton (.path h) rfl
  | wrapped h => exact WrappedInRole.singleton (.type h) rfl
  | other _ h => exact WrappedInRole.each h.forall₂ rfl

/-- A pattern has expressions wrapped within it. -/
theorem Pat.Wrapped.within {x y : Pat} (h : x.Wrapped true y) :
    (Part.pattern x).WrappedWithin (.pattern y) := by
  refine ⟨fun _ => ?_, fun _ => .nil, fun _ => rfl, fun hplace => ?_, id⟩
  · cases h with
    | bind h => exact WrappedInRole.each h.forall₂ rfl
    | typed hattributes h htype =>
        exact rel_append (WrappedInRole.each hattributes.forall₂ rfl)
          (.cons ⟨rfl, .pattern h, nofun⟩ (WrappedInRole.singleton (.type htype) rfl))
    | compound h => exact WrappedInRole.each h.forall₂ rfl
  · cases h with
    | typed _ h htype => exact h.ofTyped hplace htype
    | _ => exact .nil

/-- An item has expressions wrapped within it. -/
theorem Item.Wrapped.within {i j : Item} (h : i.Wrapped true j) :
    (Part.item i).WrappedWithin (.item j) := by
  cases h with
  | use h =>
      exact ⟨fun _ => WrappedInRole.each h.forall₂ rfl, fun _ => .cons (.same _) .nil,
        fun _ => rfl, fun _ => .nil, id⟩
  | externCrate h =>
      exact ⟨fun _ => WrappedInRole.each h.forall₂ rfl, fun _ => .cons (.same _) .nil,
        fun _ => rfl, fun _ => .nil, id⟩
  | typeAlias h htype =>
      exact ⟨fun _ => rel_append (WrappedInRole.each h.forall₂ rfl)
          (WrappedInRole.singleton (.type htype) rfl),
        fun _ => .cons (.typeAlias htype) .nil, fun _ => rfl, fun _ => .nil, id⟩
  | declaration h =>
      exact ⟨fun _ => WrappedInRole.each h.forall₂ (by split <;> rfl),
        fun _ => .cons (.same _) .nil, fun _ => rfl, fun _ => .nil, id⟩
  | module h =>
      exact ⟨fun _ => WrappedInRole.each h.forall₂ rfl, fun _ => .cons (.same _) .nil,
        fun _ => rfl, fun _ => .nil, fun hplace => hplace.below _⟩
  | implementation h htype hmembers =>
      exact ⟨fun _ => rel_append (WrappedInRole.each h.forall₂ rfl)
          (.cons ⟨rfl, .type htype, nofun⟩ (WrappedInRole.each hmembers.forall₂ rfl)),
        fun _ => .nil, fun _ => rfl, fun _ => .nil, fun hplace => hplace.within htype⟩
  | other h =>
      exact ⟨fun _ => WrappedInRole.each h.forall₂ rfl, fun _ => .nil, fun _ => rfl,
        fun _ => .nil, id⟩

/-- What a part that is an expression declares, the expression declares. -/
theorem Part.Is.declared {a : Part} {e : Expr} (h : a.Is e) (module : List String) :
    Declaration.inPart module a = Declaration.inExpr module e := by
  cases h with
  | expr e => rw [Declaration.inPart]
  | invoke i => rw [Declaration.inPart, Declaration.inExpr]

/-- What a part that is an expression mentions, the expression mentions. -/
theorem Part.Is.mentioned {a : Part} {e : Expr} (h : a.Is e) (place : Place) (called : Bool) :
    inPartAs place called a = inExpr place called e := by
  cases h with
  | expr e => rfl
  | invoke i => rw [inExpr]; rfl

/-- A part that is an expression is a path when the expression is. -/
theorem Part.Is.isPath_eq {a : Part} {e : Expr} (h : a.Is e) : a.isPath = e.isPath := by
  cases h <;> rfl

/-- The same is mentioned in an expression that is no path, **called or not**. -/
theorem inExpr_of_not_isPath {place : Place} {e : Expr} (h : e.isPath = false) (called : Bool) :
    inExpr place called e = inExpr place false e := by
  induction e using Expr.bare.induct with
  | case1 attributes inner ih =>
      have hinner : inner.isPath = false := h
      rw [inExpr, inExpr, ih hinner]
  | case2 e hbare =>
      cases e with
      | path at_ p => exact Bool.noConfusion h
      | qualified at_ owner position p => exact Bool.noConfusion h
      | attributed attributes inner => exact absurd rfl (hbare attributes inner)
      | _ => rw [inExpr, inExpr]

/-- The same is mentioned in a part that is no path, **called or not**. -/
theorem inPartAs_of_not_isPath {place : Place} {part : Part} (h : part.isPath = false)
    (called : Bool) : inPartAs place called part = inPartAs place false part := by
  cases part with
  | expr e => exact inExpr_of_not_isPath h called
  | _ => rfl

/-- The third part is the second one, which is the first one wrapped, **out of all macros** that are
wrapped around it. -/
inductive Part.Unwraps (x y y' : Part) : Prop
  /-- There are no such macros: nothing is met in one that is not met in the other. -/
  | kept (hpath : y'.isPath = y.isPath)
      (hdeclared : ∀ module, Declaration.inPart module y' = Declaration.inPart module y)
      (hmentioned : ∀ place called, inPartAs place called y' = inPartAs place called y)
  /-- There are: they declare nothing, as what is wrapped does, and mention what is mentioned in it
  when it is not called. -/
  | macros (hpath : y.isPath = false) (hleft : ∀ module, Declaration.inPart module x = [])
      (hright : ∀ module, Declaration.inPart module y = [])
      (hmentioned : ∀ place called, inPartAs place called y = inPartAs place false y')

/-- A part **out of all macros** that are wrapped around it has expressions wrapped within it
only. -/
theorem Part.Wrapped.unwrapped {x y : Part} (h : x.Wrapped true y) :
    ∃ y', x.WrappedWithin y' ∧ x.Unwraps y y' := by
  have hkept : x.WrappedWithin y → ∃ y', x.WrappedWithin y' ∧ x.Unwraps y y' :=
    fun hwithin => ⟨y, hwithin, .kept rfl (fun _ => rfl) fun _ _ => rfl⟩
  cases h with
  | type h => exact hkept h.within
  | pattern h => exact hkept h.within
  | item h => exact hkept h.within
  | path h => exact hkept h.within
  | binding hvalue hattributes h hvalues =>
      refine hkept ⟨fun _ => ?_, fun _ => .nil, fun _ => rfl, fun hplace => ?_, id⟩
      · exact rel_append (WrappedInRole.each hattributes.forall₂ rfl)
          (.cons ⟨rfl, .pattern h, nofun⟩ (WrappedInRole.each hvalues.forall₂ rfl))
      · exact h.ofBinding hplace (hvalue rfl) hvalues
  | group h =>
      exact hkept ⟨fun _ => WrappedInRole.each h.forall₂ rfl, fun _ => .nil, fun _ => rfl,
        fun _ => .nil, id⟩
  | @expr x y e f ha hb h =>
      -- what stands for the part, as a use of a macro where the part is one
      have hform : ∀ g, e.WrappedWithin g → ∃ y', x.WrappedWithin y' ∧ y'.Is g := by
        intro g hwithin
        cases ha with
        | expr e => exact ⟨_, hwithin.part, .expr g⟩
        | invoke i =>
            obtain ⟨j, rfl, hij⟩ := hwithin.invoke i rfl
            exact ⟨_, hij.within, .invoke j⟩
      rcases h.unwrapped with hwithin | ⟨⟨j, rfl⟩, hdeclares, g, hwithin, hsame⟩
      · obtain ⟨y', hpart, hy'⟩ := hform f hwithin
        refine ⟨y', hpart, .kept ?_ (fun module => ?_) fun place called => ?_⟩
        · rw [hy'.isPath_eq, hb.isPath_eq]
        · rw [hy'.declared, hb.declared]
        · rw [hy'.mentioned, hb.mentioned]
      · obtain ⟨y', hpart, hy'⟩ := hform g hwithin
        refine ⟨y', hpart, .macros hb.isPath_eq (fun module => ?_) (fun module => ?_)
          fun place called => ?_⟩
        · rw [ha.declared, hdeclares]
        · rw [hb.declared, Declaration.inExpr]
        · rw [hy'.mentioned, hb.mentioned, ← hsame, inExpr, inExpr]

/-! ### The walks -/

/-- The walk for declarations **keeps** wrapping. -/
theorem declarationWalk_keeps_wrapped :
    declarationWalk.Keeps (fun _ => Forall₂) Declaration.Wrapped
      (fun s t => s.1 = t.1 ∧ s.2.Wrapped true t.2) := by
  rintro ⟨module, x⟩ ⟨_, y⟩ ⟨rfl, h⟩
  obtain ⟨y', hwithin, hunwraps⟩ := h.unwrapped
  cases hunwraps with
  | kept _ hdeclared _ =>
      have hcomponents : Forall₂ (InRole (Part.Wrapped true)) x.components y'.components :=
        (@hwithin.components false nofun).imp fun _ _ hcd => ⟨hcd.1, hcd.2.wrapped⟩
      exact ⟨_, (module, y'), rfl, Nat.le_refl _, hdeclared module, hwithin.declares module,
        declarationWalk_next comparesLists_forall₂ (hwithin.module module) hcomponents⟩
  | macros _ hleft hright _ =>
      -- neither declares anything, so the part may stand on both sides
      refine ⟨_, (module, x), rfl, Nat.le_refl _, (hleft module).trans (hright module).symm, ?_, ?_⟩
      · exact List.forall₂_same.mpr fun d _ => .same d
      · exact List.forall₂_same.mpr fun s _ => ⟨rfl, Part.Wrapped.refl s.2⟩

/-- Carefully wrapped programs **declare the same** in the same order. -/
theorem SourceFile.Wrapped.declared {p q : SourceFile} (h : p.Wrapped true q) :
    Forall₂ Declaration.Wrapped p.declarations q.declarations :=
  declarationWalk_keeps_wrapped.declarations comparesLists_forall₂ rfl
    (h.forall₂.imp fun _ _ hab => hab.wrapped)

/-- The walk for mentions **keeps** wrapping. -/
theorem mentionWalk_keeps_wrapped :
    mentionWalk.Keeps (fun _ => Forall₂) MentionedInWrapped
      (StopsAlike Place.Wrapped Part.WrappedAs) := by
  rintro ⟨a, called, x⟩ ⟨b, _, y⟩ ⟨hplace, rfl, h⟩
  obtain ⟨y', hwithin, hunwraps⟩ := h.wrapped.unwrapped
  cases hunwraps with
  | kept hpath _ hmentioned =>
      exact ⟨_, ⟨b, called, y'⟩, rfl, Nat.le_refl _, hmentioned b called,
        hwithin.mentions hplace,
        mentionWalk_next comparesLists_forall₂ (hwithin.place hplace)
          (hwithin.components fun hcalled => (h.callee hcalled).trans hpath.symm)⟩
  | macros hpath _ _ hmentioned =>
      refine ⟨⟨a, false, x⟩, ⟨b, false, y'⟩, ?_, Nat.le_refl _, (hmentioned b called).symm,
        hwithin.mentions hplace,
        mentionWalk_next comparesLists_forall₂ (hwithin.place hplace)
          (hwithin.components nofun)⟩
      -- what is wrapped is no path if it is called
      cases called with
      | false => rfl
      | true => exact (inPartAs_of_not_isPath ((h.callee rfl).trans hpath) true).symm

/-- Carefully wrapped programs **mention the same** in the same order. -/
theorem SourceFile.Wrapped.mentioned {p q : SourceFile} (h : p.Wrapped true q) :
    Forall₂ MentionedInWrapped p.mentions q.mentions :=
  mentionWalk_keeps_wrapped.mentions comparesLists_forall₂ .free h.forall₂

end CapabilityGate.Program
