import CapabilityGate.Program.Mention

/-!
# What the walk for mentions reaches

The constructs of a program nest: items hold expressions, expressions hold types, and types hold
expressions again. Here the parts of a program are listed one level at a time, apart from any
walk. The walk for mentions meets what a part mentions itself, and then what is mentioned in the
parts that stand directly in it, one after the other. So what is met in a part stands in a row among
the mentions of the program, and every call is reached, however deeply it is nested.

## Main definitions

* `Part.children`: what stands directly in a part, and where.
* `Item.parts`, `Part.placeWithin`: what an item is made of, and where that stands.
* `Within`: what stands in a part at any depth.
* `SourceFile.Holds`: what stands in a program at any depth.
* `Walked`, `WalkedAmong`, `SourceFile.Walks`: the same with the attributes of expressions.
* `Part.own`: what a part mentions before anything that stands in it.
* `walkedIn`: what is mentioned in parts, one after the other.

## Main results

* `inPartAs_eq`: the walk over a part, level by level.
* `infix_of_within`: a part that stands within another one is walked with it, in a row.
* `mem_mentions_of_call`: the path of every call that a program holds is mentioned as called.
-/

namespace CapabilityGate.Program

/-! ### Parts of parts -/

/-- Parts that stand at one place. -/
def placed (place : Place) (parts : List Part) : List (Place × Part) :=
  parts.map fun part => (place, part)

/-- Expressions that stand at one place, as parts. -/
def placedExprs (place : Place) (es : List Expr) : List (Place × Part) :=
  es.map fun e => (place, .expr e)

/-- Expressions as parts stand **where the expressions do**. -/
theorem placed_exprs (place : Place) (es : List Expr) :
    placed place (es.map .expr) = placedExprs place es :=
  List.map_map ..

/-- What stands **directly in** a part of a program, each with its place. All that a part is made
of is listed but for four things: the generic arguments and the type in front of a path that is
an expression, those behind the name of a method that is called, the attributes in front of an
expression, and the tokens of a macro that are no list of expressions. -/
def Part.children (place : Place) : Part → List (Place × Part)
  | .type (.path p) => [(place, .path p)]
  | .type (.wrapped inner) => [(place, .type inner)]
  | .type (.other _ parts) => placed place parts
  | .expr (.path _ _) => []
  | .expr (.qualified _ _ _ _) => []
  | .expr (.call callee args) => placedExprs place (callee :: args)
  | .expr (.method receiver _ _ _ args) => placedExprs place (receiver :: args)
  | .expr (.paren inner) => [(place, .expr inner)]
  | .expr (.reference inner) => [(place, .expr inner)]
  | .expr (.tried inner) => [(place, .expr inner)]
  | .expr (.construct owner p fields) => placed place (owner ++ .path p :: fields)
  | .expr (.invoke i) => [(place, .invoke i)]
  | .expr (.attributed _ inner) => [(place, .expr inner)]
  | .expr (.compound _ parts) => placed place parts
  | .pattern (.bind _ parts) => placed place parts
  | .pattern (.typed attributes inner t) => placed place (attributes ++ [.pattern inner, .type t])
  | .pattern (.compound parts) => placed place parts
  | .item (.use attributes _ _) => placed place attributes
  | .item (.externCrate attributes _ _) => placed place attributes
  | .item (.typeAlias parts _ t) => placed place (parts ++ [.type t])
  | .item (.declaration _ _ parts) => placed place parts
  | .item (.module name parts) => placed ⟨place.module ++ [name.text], place.owner⟩ parts
  | .item (.implementation parts selfType members) =>
    placed ⟨place.module, some (place.module, selfType)⟩ (parts ++ .type selfType :: members)
  | .item (.other parts) => placed place parts
  | .path p => placed place (p.segments.flatMap Segment.args)
  | .invoke (.mk _ _ _ (.list members)) => placedExprs place members
  | .invoke (.mk _ _ _ .raw) => []
  | .binding attributes inner values =>
    placed place (attributes ++ .pattern inner :: values.map .expr)
  | .group parts => placed place parts

/-- The place that the parts of a part stand in. -/
def Part.placeWithin (place : Place) : Part → Place
  | .item (.module name _) => ⟨place.module ++ [name.text], place.owner⟩
  | .item (.implementation _ selfType _) => ⟨place.module, some (place.module, selfType)⟩
  | _ => place

/-- All that an item is made of. -/
def Item.parts : Item → List Part
  | .use attributes _ _ => attributes
  | .externCrate attributes _ _ => attributes
  | .typeAlias parts _ t => parts ++ [.type t]
  | .declaration _ _ parts => parts
  | .module _ parts => parts
  | .implementation parts selfType members => parts ++ .type selfType :: members
  | .other parts => parts

/-- All that an item is made of stands directly in it, at **the place within** it. -/
theorem children_item (place : Place) (item : Item) :
    (Part.item item).children place = placed ((Part.item item).placeWithin place) item.parts := by
  cases item <;> rfl

/-- The second part stands **within** the first one, at any depth or as this itself. -/
inductive Within : (place : Place) → (part : Part) → (at_ : Place) → (inner : Part) → Prop
  /-- A part stands within itself. -/
  | here {place : Place} {part : Part} : Within place part place part
  /-- What stands within something that stands directly in a part stands within this. -/
  | inside {place between at_ : Place} {part child inner : Part}
      (hchild : (between, child) ∈ part.children place)
      (h : Within between child at_ inner) : Within place part at_ inner

/-- What stands directly in something **stands within** whatever this stands within. -/
theorem Within.child {place at_ below : Place} {part inner child : Part}
    (h : Within place part at_ inner) (hchild : (below, child) ∈ inner.children at_) :
    Within place part below child := by
  induction h with
  | here => exact .inside hchild .here
  | inside hfirst _ ih => exact .inside hfirst (ih hchild)

/-- The parts that a source file is made of. -/
def SourceFile.parts (p : SourceFile) : List Part :=
  p.attributes ++ p.items.map .item

/-- A program **holds** a part at a place, at any depth. -/
def SourceFile.Holds (p : SourceFile) (at_ : Place) (inner : Part) : Prop :=
  ∃ part ∈ p.parts, Within ⟨[], none⟩ part at_ inner

/-- The second part stands within the first one, in the **attributes** of an expression perhaps,
where these are looked into. -/
inductive Walked (place : Place) (part : Part) : (at_ : Place) → (inner : Part) → Prop
  /-- It stands in no attributes. -/
  | within {at_ : Place} {inner : Part} (h : Within place part at_ inner) :
      Walked place part at_ inner
  /-- It stands within one of the attributes of an expression. -/
  | attached {between at_ : Place} {attributes : List Part} {e : Expr} {a inner : Part}
      (h : Walked place part between (.expr (.attributed attributes e)))
      (hshown : Mentions.hidesAttributes e = false) (ha : a ∈ attributes)
      (hwithin : Within between a at_ inner) : Walked place part at_ inner

/-- What is walked with something that stands directly in a part is **walked with the part**. -/
theorem Walked.inside {place between at_ : Place} {part child inner : Part}
    (hchild : (between, child) ∈ part.children place) (h : Walked between child at_ inner) :
    Walked place part at_ inner := by
  induction h with
  | within h => exact .within (.inside hchild h)
  | attached _ hshown ha hwithin ih => exact .attached ih hshown ha hwithin

/-- What is walked with an attribute of an expression is walked with the expression, where its
attributes **are looked into**. -/
theorem Walked.attribute {place at_ : Place} {attributes : List Part} {e : Expr} {a inner : Part}
    (hshown : Mentions.hidesAttributes e = false) (ha : a ∈ attributes)
    (h : Walked place a at_ inner) : Walked place (.expr (.attributed attributes e)) at_ inner := by
  induction h with
  | within h => exact .attached (.within .here) hshown ha h
  | attached _ hinner hmem hwithin ih => exact .attached ih hinner hmem hwithin

/-- What is walked with a part is the part itself, or is walked **with something that stands
directly in it** or with one of its attributes. -/
theorem Walked.eq_or_inside {place at_ : Place} {part inner : Part}
    (h : Walked place part at_ inner) :
    (at_ = place ∧ inner = part) ∨
      (∃ c ∈ part.children place, Walked c.1 c.2 at_ inner) ∨
      ∃ attributes e, part = .expr (.attributed attributes e) ∧
        Mentions.hidesAttributes e = false ∧ ∃ a ∈ attributes, Walked place a at_ inner := by
  induction h with
  | within h =>
      cases h with
      | here => exact .inl ⟨rfl, rfl⟩
      | inside hchild h => exact .inr (.inl ⟨_, hchild, .within h⟩)
  | attached _ hshown ha hwithin ih =>
      obtain ⟨rfl, rfl⟩ | ⟨c, hc, hinside⟩ | ⟨attributes, e, rfl, houter, b, hb, hattribute⟩ := ih
      · exact .inr (.inr ⟨_, _, rfl, hshown, _, ha, .within hwithin⟩)
      · exact .inr (.inl ⟨c, hc, .attached hinside hshown ha hwithin⟩)
      · exact .inr (.inr ⟨attributes, e, rfl, houter, b, hb,
          .attached hattribute hshown ha hwithin⟩)

/-- A part is **walked among parts** that stand at one place when it is walked with one of them. -/
def WalkedAmong (place : Place) (parts : List Part) (at_ : Place) (inner : Part) : Prop :=
  ∃ part ∈ parts, Walked place part at_ inner

/-- What is walked among some parts is walked **among more of them**. -/
theorem WalkedAmong.mono {place at_ : Place} {parts more : List Part} {inner : Part}
    (h : WalkedAmong place parts at_ inner) (hsub : parts ⊆ more) :
    WalkedAmong place more at_ inner := by
  obtain ⟨part, hpart, hwalked⟩ := h
  exact ⟨part, hsub hpart, hwalked⟩

/-- What is walked among parts that stand directly in another one is **walked with that one**. -/
theorem WalkedAmong.inside {place between at_ : Place} {parts : List Part} {part inner : Part}
    (h : WalkedAmong between parts at_ inner) (hsub : placed between parts ⊆ part.children place) :
    WalkedAmong place [part] at_ inner := by
  obtain ⟨child, hchild, hwalked⟩ := h
  exact ⟨part, List.mem_singleton_self _, hwalked.inside (hsub (List.mem_map_of_mem hchild))⟩

/-- A program **walks** a part at a place when it holds it there, in the attributes of an
expression perhaps, where these are looked into. -/
def SourceFile.Walks (p : SourceFile) (at_ : Place) (inner : Part) : Prop :=
  WalkedAmong ⟨[], none⟩ p.parts at_ inner

/-- What a file holds **is walked**. -/
theorem SourceFile.Holds.walks {p : SourceFile} {at_ : Place} {inner : Part}
    (h : p.Holds at_ inner) : p.Walks at_ inner := by
  obtain ⟨part, hpart, hwithin⟩ := h
  exact ⟨part, hpart, .within hwithin⟩

/-- A program walks **what stands directly in** a part that it walks. -/
theorem SourceFile.Walks.child {p : SourceFile} {at_ below : Place} {inner child : Part}
    (h : p.Walks at_ inner) (hchild : (below, child) ∈ inner.children at_) :
    p.Walks below child := by
  obtain ⟨part, hpart, hwalked⟩ := h
  refine ⟨part, hpart, ?_⟩
  cases hwalked with
  | within hwithin => exact .within (hwithin.child hchild)
  | attached h hshown ha hwithin => exact .attached h hshown ha (hwithin.child hchild)

/-- A program walks an expression that it walks **behind its attributes**. -/
theorem SourceFile.Walks.bare {p : SourceFile} {place : Place} {e : Expr}
    (h : p.Walks place (.expr e)) : p.Walks place (.expr e.bare) := by
  induction e using Expr.bare.induct with
  | case1 attributes inner ih =>
      rw [Expr.bare]
      exact ih (h.child (List.mem_singleton_self _))
  | case2 e hbare =>
      rw [Expr.bare]
      · exact h
      · exact hbare

/-! ### The walk, list by list -/

namespace Mentions

variable {place : Place} {m : Place × Mention}

attribute [local simp] inPath inSegments inType inExpr inExprs inPattern inItem inInvocation
  inReading inPart inParts

/-- Parts mention **what one of them does**. -/
theorem mem_inParts {parts : List Part} :
    m ∈ inParts place parts ↔ ∃ part ∈ parts, m ∈ inPart place part := by
  induction parts with
  | nil => simp
  | cons part rest ih => simp [ih]

/-- The mentions in a part, which may be `called` if it is an expression. -/
def inPartAs (place : Place) (called : Bool) : Part → List (Place × Mention)
  | .expr e => inExpr place called e
  | part => inPart place part

/-- A part that is not called has the mentions in it. -/
theorem inPartAs_false (place : Place) (part : Part) :
    inPartAs place false part = inPart place part := by
  cases part <;> rfl

/-- Parts behind others mention what they do **behind what the others do**. -/
theorem inParts_append (place : Place) (parts more : List Part) :
    inParts place (parts ++ more) = inParts place parts ++ inParts place more := by
  induction parts with
  | nil => rfl
  | cons part rest ih => rw [List.cons_append, inParts, inParts, ih, List.append_assoc]

/-- Expressions as parts mention **what the expressions do**. -/
theorem inParts_exprs (place : Place) (es : List Expr) :
    inParts place (es.map .expr) = inExprs place es := by
  induction es with
  | nil => rfl
  | cons e rest ih => rw [List.map_cons, inParts, inExprs, ih, inPart]

/-- The segments of a path mention **what their arguments do**. -/
theorem inSegments_eq_inParts (place : Place) (segments : List Segment) :
    inSegments place segments = inParts place (segments.flatMap Segment.args) := by
  induction segments with
  | nil => rfl
  | cons segment rest ih =>
      obtain ⟨word, style, args⟩ := segment
      rw [inSegments, ih, List.flatMap_cons, inParts_append]
      rfl

/-- What is mentioned in parts, **one after the other**, each at its place. -/
def walkedIn (children : List (Place × Part)) : List (Place × Mention) :=
  children.flatMap fun c => inPart c.1 c.2

/-- Parts mention what is mentioned **at their places**. -/
theorem inParts_eq_walkedIn (place : Place) (parts : List Part) :
    inParts place parts = walkedIn (placed place parts) := by
  induction parts with
  | nil => rw [inParts]; rfl
  | cons part rest ih => rw [inParts, ih]; rfl

/-- So do expressions. -/
theorem inExprs_eq_walkedIn (place : Place) (es : List Expr) :
    inExprs place es = walkedIn (placedExprs place es) := by
  rw [← inParts_exprs, inParts_eq_walkedIn, placed_exprs]

/-- What is mentioned in an item is what its parts mention **at the place within it**. -/
theorem inItem_eq_inParts (place : Place) (item : Item) :
    inItem place item = inParts ((Part.item item).placeWithin place) item.parts := by
  cases item <;> simp [Item.parts, Part.placeWithin, inParts_append]

end Mentions

/-! ### The walk over one part -/

open Mentions

/-- What a part **mentions itself**, before anything that stands directly in it: the method that it
calls, the names that it binds, and what its attributes mention, where these are looked into. -/
def Part.own (place : Place) : Part → List (Place × Mention)
  | .expr (.method receiver name at_ _ _) => [(place, .method receiver name.text at_)]
  | .expr (.attributed attributes inner) =>
    if hidesAttributes inner then [] else inParts place attributes
  | .pattern (.typed _ inner t) => ofTyped place inner t
  | .binding _ inner values => ofBinding place inner values
  | _ => []

/-- Whether the first thing that stands directly in a part is walked **as called**, if the part may
be `called` itself: it is the callee of a call, or stands behind attributes. -/
def Part.calls (called : Bool) : Part → Bool
  | .expr (.call _ _) => true
  | .expr (.attributed _ _) => called
  | _ => false

/-- What is mentioned in parts of which the first may be `called`. -/
def walkedAs (called : Bool) : List (Place × Part) → List (Place × Mention)
  | [] => []
  | c :: rest => inPartAs c.1 called c.2 ++ walkedIn rest

/-- Without a call the children are walked **as parts**. -/
theorem walkedAs_false (children : List (Place × Part)) :
    walkedAs false children = walkedIn children := by
  cases children with
  | nil => rfl
  | cons c rest =>
      rw [walkedAs, inPartAs_false]
      rfl

/-- The walk over a part in which something stands is **what it mentions itself and then the walk
over what stands in it**. -/
theorem inPartAs_eq {place : Place} {part : Part} (hne : part.children place ≠ [])
    (called : Bool) :
    inPartAs place called part =
      part.own place ++ walkedAs (part.calls called) (part.children place) := by
  cases part with
  | type t =>
      rw [show Part.calls called (.type t) = false from rfl, walkedAs_false]
      cases t with
      | other text parts => exact inParts_eq_walkedIn place parts
      | _ => simp [inPartAs, inPart, inType, Part.own, Part.children, walkedIn]
  | expr e =>
      cases e with
      | path at_ p => exact absurd rfl hne
      | qualified at_ owner position p => exact absurd rfl hne
      | call callee args =>
          simp [inPartAs, inExpr, Part.own, Part.calls, Part.children, placedExprs, walkedAs,
            inExprs_eq_walkedIn]
      | attributed attributes inner =>
          simp only [inPartAs, inExpr, Part.own, Part.calls, Part.children, walkedAs]
          split <;> simp [walkedIn]
      | method receiver name at_ turbofish args =>
          simp [inPartAs, inExpr, Part.own, Part.calls, Part.children, placedExprs, walkedAs,
            inExprs_eq_walkedIn]
      | construct owner p fields =>
          simp [inPartAs, inExpr, Part.own, Part.calls, Part.children, walkedAs_false,
            ← inParts_eq_walkedIn, inParts_append, inParts, inPart]
      | compound form parts =>
          simp [inPartAs, inExpr, Part.own, Part.calls, Part.children, walkedAs_false,
            ← inParts_eq_walkedIn]
      | _ =>
          simp [inPartAs, inExpr, Part.own, Part.calls, Part.children, walkedAs_false, walkedIn,
            inPart]
  | pattern pattern =>
      rw [show Part.calls called (.pattern pattern) = false from rfl, walkedAs_false]
      cases pattern with
      | typed attributes inner t =>
          simp [inPartAs, inPart, inPattern, Part.own, Part.children, ← inParts_eq_walkedIn,
            inParts_append, inParts]
      | _ => exact inParts_eq_walkedIn ..
  | item item =>
      rw [show Part.calls called (.item item) = false from rfl, walkedAs_false]
      cases item with
      | typeAlias parts name t =>
          simp [inPartAs, inPart, inItem, Part.own, Part.children, ← inParts_eq_walkedIn,
            inParts_append, inParts]
      | implementation parts selfType members =>
          simp [inPartAs, inPart, inItem, Part.own, Part.children, ← inParts_eq_walkedIn,
            inParts_append, inParts]
      | _ => exact inParts_eq_walkedIn ..
  | path p =>
      obtain ⟨global, segments⟩ := p
      rw [show Part.calls called (.path (.mk global segments)) = false from rfl, walkedAs_false]
      exact (inSegments_eq_inParts place segments).trans (inParts_eq_walkedIn ..)
  | invoke i =>
      obtain ⟨name, braced, tokens, reading⟩ := i
      rw [show Part.calls called (.invoke (.mk name braced tokens reading)) = false from rfl,
        walkedAs_false]
      cases reading with
      | list members => exact inExprs_eq_walkedIn place members
      | raw => exact absurd rfl hne
  | binding attributes pattern values =>
      rw [show Part.calls called (.binding attributes pattern values) = false from rfl,
        walkedAs_false]
      simp [inPartAs, inPart, Part.own, Part.children, ← inParts_eq_walkedIn, inParts_append,
        inParts, inParts_exprs]
  | group parts =>
      rw [show Part.calls called (.group parts) = false from rfl, walkedAs_false]
      exact inParts_eq_walkedIn place parts

/-- What is mentioned in one of parts is **behind what is mentioned in those before it**, of which
the first may be called, as this one may be if it is the first. -/
theorem walkedAs_split (first : Bool) (before : List (Place × Part)) (c : Place × Part)
    (behind : List (Place × Part)) :
    walkedAs first (before ++ c :: behind) =
      walkedAs first before ++ inPartAs c.1 (before.isEmpty && first) c.2 ++ walkedIn behind := by
  cases before with
  | nil => simp [walkedAs]
  | cons head rest => simp [walkedAs, walkedIn, inPartAs_false]

/-- What is mentioned in a part that stands directly in another one is met **behind what this
mentions itself and what stands before the part in it**. -/
theorem inPartAs_split {place between : Place} {part child : Part}
    {before behind : List (Place × Part)}
    (hchildren : part.children place = before ++ (between, child) :: behind) (called : Bool) :
    inPartAs place called part = part.own place ++ walkedAs (part.calls called) before ++
      inPartAs between (before.isEmpty && part.calls called) child ++ walkedIn behind := by
  rw [inPartAs_eq (by simp [hchildren]), hchildren, walkedAs_split]
  simp only [List.append_assoc]

/-- What is mentioned in something that **stands directly in a part** stands in a row in what is
mentioned in the part. It is walked as called only if it comes first in a part that calls it. -/
theorem infix_inPartAs {place between : Place} {part child : Part}
    (hchild : (between, child) ∈ part.children place) (called : Bool) :
    ∃ c, inPartAs between c child <:+: inPartAs place called part ∧ (c = true →
      part.calls called = true ∧ ∃ rest, part.children place = (between, child) :: rest) := by
  obtain ⟨before, behind, hchildren⟩ := List.append_of_mem hchild
  refine ⟨before.isEmpty && part.calls called, ?_, fun hcalled => ?_⟩
  · rw [inPartAs_split hchildren]
    exact List.infix_append ..
  · obtain ⟨hempty, hcalls⟩ := Bool.and_eq_true_iff.mp hcalled
    rw [List.isEmpty_iff.mp hempty] at hchildren
    exact ⟨hcalls, behind, hchildren⟩

/-! ### The walk over a program -/

/-- What is mentioned in a part that **stands within** another one stands in a row in what is
mentioned in that other one, called or not. -/
theorem infix_of_within {place at_ : Place} {part inner : Part} (h : Within place part at_ inner)
    (called : Bool) : ∃ c, inPartAs at_ c inner <:+: inPartAs place called part := by
  induction h generalizing called with
  | here => exact ⟨called, List.infix_refl _⟩
  | inside hchild h ih =>
      obtain ⟨between, hbetween, -⟩ := infix_inPartAs hchild called
      obtain ⟨c, hinfix⟩ := ih between
      exact ⟨c, hinfix.trans hbetween⟩

/-- The mentions of a program are those in its parts. -/
theorem mentions_eq_inParts (p : SourceFile) : p.mentions = inParts ⟨[], none⟩ p.parts := by
  have hitems : ∀ items : List Item,
      inParts ⟨[], none⟩ (items.map .item) = items.flatMap (inItem ⟨[], none⟩) := by
    intro items
    induction items with
    | nil => rfl
    | cons item rest ih => rw [List.map_cons, inParts, inPart, ih, List.flatMap_cons]
  rw [SourceFile.mentions, SourceFile.parts, inParts_append, hitems]

/-- What is mentioned in a part that a program holds **stands in a row** among the mentions of the
program. -/
theorem infix_mentions_of_holds {p : SourceFile} {at_ : Place} {inner : Part}
    (h : p.Holds at_ inner) : ∃ c, inPartAs at_ c inner <:+: p.mentions := by
  obtain ⟨part, hpart, hwithin⟩ := h
  obtain ⟨c, hinfix⟩ := infix_of_within hwithin false
  refine ⟨c, hinfix.trans ?_⟩
  obtain ⟨before, behind, hparts⟩ := List.append_of_mem hpart
  rw [mentions_eq_inParts, hparts, inParts_append, inParts, inPartAs_false, ← List.append_assoc]
  exact List.infix_append ..

/-- What is mentioned in an expression **behind its attributes** is mentioned in it, called or
not. -/
theorem inExpr_bare_subset (place : Place) (called : Bool) (e : Expr) :
    inExpr place called e.bare ⊆ inExpr place called e := by
  induction e using Expr.bare.induct with
  | case1 attributes inner ih =>
      rw [Expr.bare, inExpr]
      split
      · exact ih
      · exact List.subset_append_of_subset_right _ ih
  | case2 e hbare =>
      rw [Expr.bare]
      · exact List.Subset.refl _
      · exact hbare

/-- What is mentioned in a part that is **walked with another one** is mentioned in that other
one, called or not. -/
theorem subset_of_walked {place at_ : Place} {part inner : Part}
    (h : Walked place part at_ inner) (called : Bool) :
    ∃ c, inPartAs at_ c inner ⊆ inPartAs place called part := by
  induction h with
  | within h =>
      obtain ⟨c, hinfix⟩ := infix_of_within h called
      exact ⟨c, hinfix.subset⟩
  | @attached between at_ attributes e a inner h hshown ha hwithin ih =>
      obtain ⟨c, hinfix⟩ := infix_of_within hwithin false
      obtain ⟨outer, houter⟩ := ih
      refine ⟨c, fun m hm => houter ?_⟩
      have hmention := hinfix.subset hm
      rw [inPartAs_false] at hmention
      change m ∈ inExpr between outer (.attributed attributes e)
      rw [inExpr, if_neg (by rw [hshown]; exact Bool.false_ne_true)]
      exact List.mem_append_left _ (mem_inParts.mpr ⟨a, ha, hmention⟩)

/-- What is mentioned in a part that **a program walks** is mentioned in the program, called or
not. -/
theorem subset_mentions_of_walks {p : SourceFile} {at_ : Place} {inner : Part}
    (h : p.Walks at_ inner) : ∃ c, inPartAs at_ c inner ⊆ p.mentions := by
  obtain ⟨part, hpart, hwalked⟩ := h
  obtain ⟨c, hc⟩ := subset_of_walked hwalked false
  refine ⟨c, fun m hm => ?_⟩
  have hmention := hc hm
  rw [inPartAs_false] at hmention
  rw [mentions_eq_inParts]
  exact mem_inParts.mpr ⟨part, hpart, hmention⟩

/-- The path of **every call that a program holds** is mentioned as called, where it stands. -/
theorem mem_mentions_of_call {p : SourceFile} {place : Place} {callee : Expr} {args : List Expr}
    {at_ : Position} {path : Path} (hcall : p.Holds place (.expr (.call callee args)))
    (hcallee : callee.bare = .path at_ path) :
    (place, Mention.path true at_ path) ∈ p.mentions := by
  obtain ⟨c, hc⟩ := subset_mentions_of_walks hcall.walks
  refine hc ?_
  change _ ∈ inExpr place c (.call callee args)
  rw [inExpr]
  refine List.mem_append_left _ (inExpr_bare_subset place true callee ?_)
  rw [hcallee, inExpr]
  exact List.mem_singleton_self _

end CapabilityGate.Program
