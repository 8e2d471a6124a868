import CapabilityGate.Program.Declaration
import CapabilityGate.Proofs.Program.Rearrangement

/-!
# Expressions wrapped into macros

An expression may be given to a macro instead of standing by itself, and the macro reads what it is
given as that expression again. Two programs are related when the second one is the first one with
expressions wrapped in this way, as many as one likes and at any depth, and with the places that
this gives to the rest.

What stands around an expression may look at its form: a call does at its callee, a method call at
its receiver, and a `let` statement at its initialiser. A careful wrapping leaves alone what is
looked at, as well as expressions that declare something and those in a type that is known by its
text.

## Main definitions

* `Expr.isPath`, `Expr.isLoneName`, `Expr.makesValue`: what is looked at.
* `SourceFile.Wrapped`: one program is another one with expressions wrapped into macros, with care
  or without; and the same for each kind of construct.

## Main results

* `SourceFile.Wrapped.refl`: a program is itself with nothing wrapped.
* `Path.Wrapped.ident?_eq`, `Path.Wrapped.getLast?_name_eq`: what wrapping does not change.
-/

namespace CapabilityGate.Program

/-! ### Forms that are looked at -/

/-- Whether an expression is a path, behind its attributes, so that a call of it is a call of what
the path names. -/
def Expr.isPath (e : Expr) : Bool :=
  match e.bare with
  | .path .. | .qualified .. => true
  | _ => false

/-- Whether an expression is nothing but a name, behind brackets and references, so that a method
call on it is one on what the name is bound to. -/
def Expr.isLoneName : Expr → Bool
  | .path _ p => p.ident?.isSome
  | .paren inner => inner.isLoneName
  | .reference inner => inner.isLoneName
  | .attributed _ inner => inner.isLoneName
  | _ => false

/-- Whether an expression shows the type of the value it makes: a call of a path or a structure,
behind brackets, `?`, `unwrap` and `expect`. -/
def Expr.makesValue : Expr → Bool
  | .tried inner => inner.makesValue
  | .paren inner => inner.makesValue
  | .attributed _ inner => inner.makesValue
  | .method receiver name _ _ _ =>
    (name.text == "unwrap" || name.text == "expect") && receiver.makesValue
  | .call callee _ =>
    match callee.bare with
    | .path .. => true
    | _ => false
  | .construct _ _ _ => true
  | _ => false

/-- Whether the first of the values of a `let` statement shows its type. -/
def firstMakesValue : List Expr → Bool
  | [] => false
  | value :: _ => value.makesValue

/-- The part of a construct **is the expression**. A macro may stand by itself or as an
expression. -/
inductive Part.Is : Part → Expr → Prop
  | expr (e : Expr) : Part.Is (.expr e) e
  | invoke (i : Invocation) : Part.Is (.invoke i) (.invoke i)

/-! ### Wrapping -/

mutual

/-- A path is another one with expressions **wrapped** in its arguments. -/
inductive Path.Wrapped (careful : Bool) : Path → Path → Prop
  | mk {global : Bool} {ss ts : List Segment} (h : SegmentsWrapped careful ss ts) :
      Path.Wrapped careful (.mk global ss) (.mk global ts)

/-- Segments are others with expressions wrapped in them, one by one. -/
inductive SegmentsWrapped (careful : Bool) : List Segment → List Segment → Prop
  | nil : SegmentsWrapped careful [] []
  | cons {word : Word} {style : ArgumentStyle} {as bs : List Part} {ss ts : List Segment}
      (h : PartsWrapped careful as bs) (hrest : SegmentsWrapped careful ss ts) :
      SegmentsWrapped careful (.mk word style as :: ss) (.mk word style bs :: ts)

/-- A type is another one with expressions wrapped in it. With care, a type that is known by its
text keeps that text. -/
inductive Ty.Wrapped (careful : Bool) : Ty → Ty → Prop
  | path {p q : Path} (h : p.Wrapped careful q) : Ty.Wrapped careful (.path p) (.path q)
  | wrapped {s t : Ty} (h : s.Wrapped careful t) : Ty.Wrapped careful (.wrapped s) (.wrapped t)
  | other {text changed : String} {as bs : List Part} (htext : careful = true → text = changed)
      (h : PartsWrapped careful as bs) : Ty.Wrapped careful (.other text as) (.other changed bs)

/-- An expression is another one that is wrapped, or has expressions wrapped in it. With care, no
callee that is a path is wrapped, no receiver that is a lone name, no call or path below attributes
of its own, and nothing that declares a name. -/
inductive Expr.Wrapped (careful : Bool) : Expr → Expr → Prop
  | wrap {e f : Expr} {name : List String} {braced : Bool} {ts : List Token}
      (hdeclares : careful = true → ∀ module, Declaration.inExpr module e = [])
      (h : e.Wrapped careful f) :
      Expr.Wrapped careful e (.invoke (.mk name braced ts (.list [f])))
  | path {at_ other : Position} {p q : Path} (h : p.Wrapped careful q) :
      Expr.Wrapped careful (.path at_ p) (.path other q)
  | qualified {at_ other : Position} {s t : Ty} {position : Nat} {p q : Path}
      (howner : s.Wrapped careful t) (h : p.Wrapped careful q) :
      Expr.Wrapped careful (.qualified at_ s position p) (.qualified other t position q)
  | call {e f : Expr} {as bs : List Expr} (hcallee : careful = true → e.isPath = f.isPath)
      (h : e.Wrapped careful f) (hargs : ExprsWrapped careful as bs) :
      Expr.Wrapped careful (.call e as) (.call f bs)
  | method {e f : Expr} {name : Word} {at_ other : Position} {ps qs : List Part} {as bs : List Expr}
      (hreceiver : careful = true → e.isLoneName = f.isLoneName) (h : e.Wrapped careful f)
      (hturbofish : PartsWrapped careful ps qs) (hargs : ExprsWrapped careful as bs) :
      Expr.Wrapped careful (.method e name at_ ps as) (.method f name other qs bs)
  | paren {e f : Expr} (h : e.Wrapped careful f) : Expr.Wrapped careful (.paren e) (.paren f)
  | reference {e f : Expr} (h : e.Wrapped careful f) :
      Expr.Wrapped careful (.reference e) (.reference f)
  | tried {e f : Expr} (h : e.Wrapped careful f) : Expr.Wrapped careful (.tried e) (.tried f)
  | construct {ps qs as bs : List Part} {p q : Path} (howner : PartsWrapped careful ps qs)
      (h : p.Wrapped careful q) (hfields : PartsWrapped careful as bs) :
      Expr.Wrapped careful (.construct ps p as) (.construct qs q bs)
  | invoke {i j : Invocation} (h : i.Wrapped careful j) :
      Expr.Wrapped careful (.invoke i) (.invoke j)
  | attributed {as bs : List Part} {e f : Expr}
      (hhides : careful = true → Mentions.hidesAttributes e = Mentions.hidesAttributes f)
      (hattributes : PartsWrapped careful as bs) (h : e.Wrapped careful f) :
      Expr.Wrapped careful (.attributed as e) (.attributed bs f)
  | compound {form : Form} {as bs : List Part} (h : PartsWrapped careful as bs) :
      Expr.Wrapped careful (.compound form as) (.compound form bs)

/-- Expressions are others that are wrapped, or have expressions wrapped in them, one by one. -/
inductive ExprsWrapped (careful : Bool) : List Expr → List Expr → Prop
  | nil : ExprsWrapped careful [] []
  | cons {e f : Expr} {es fs : List Expr} (h : e.Wrapped careful f)
      (hrest : ExprsWrapped careful es fs) : ExprsWrapped careful (e :: es) (f :: fs)

/-- A pattern is another one with expressions wrapped in it. -/
inductive Pat.Wrapped (careful : Bool) : Pat → Pat → Prop
  | bind {name : Word} {as bs : List Part} (h : PartsWrapped careful as bs) :
      Pat.Wrapped careful (.bind name as) (.bind name bs)
  | typed {as bs : List Part} {x y : Pat} {s t : Ty} (hattributes : PartsWrapped careful as bs)
      (h : x.Wrapped careful y) (htype : s.Wrapped careful t) :
      Pat.Wrapped careful (.typed as x s) (.typed bs y t)
  | compound {as bs : List Part} (h : PartsWrapped careful as bs) :
      Pat.Wrapped careful (.compound as) (.compound bs)

/-- An item is another one with expressions wrapped in it. -/
inductive Item.Wrapped (careful : Bool) : Item → Item → Prop
  | use {as bs : List Part} {global : Bool} {tree : UseTree} (h : PartsWrapped careful as bs) :
      Item.Wrapped careful (.use as global tree) (.use bs global tree)
  | externCrate {as bs : List Part} {name : Word} {alias_ : Option Word}
      (h : PartsWrapped careful as bs) :
      Item.Wrapped careful (.externCrate as name alias_) (.externCrate bs name alias_)
  | typeAlias {as bs : List Part} {name : Word} {s t : Ty} (h : PartsWrapped careful as bs)
      (htype : s.Wrapped careful t) :
      Item.Wrapped careful (.typeAlias as name s) (.typeAlias bs name t)
  | declaration {kind : Declared} {name : Word} {as bs : List Part}
      (h : PartsWrapped careful as bs) :
      Item.Wrapped careful (.declaration kind name as) (.declaration kind name bs)
  | module {name : Word} {as bs : List Part} (h : PartsWrapped careful as bs) :
      Item.Wrapped careful (.module name as) (.module name bs)
  | implementation {as bs ms ns : List Part} {s t : Ty} (h : PartsWrapped careful as bs)
      (htype : s.Wrapped careful t) (hmembers : PartsWrapped careful ms ns) :
      Item.Wrapped careful (.implementation as s ms) (.implementation bs t ns)
  | other {as bs : List Part} (h : PartsWrapped careful as bs) :
      Item.Wrapped careful (.other as) (.other bs)

/-- A use of a macro is another one with expressions wrapped in what it is given, if that reads as
expressions. -/
inductive Invocation.Wrapped (careful : Bool) : Invocation → Invocation → Prop
  | list {name : List String} {braced : Bool} {ts us : List Token} {es fs : List Expr}
      (h : ExprsWrapped careful es fs) :
      Invocation.Wrapped careful (.mk name braced ts (.list es)) (.mk name braced us (.list fs))
  | raw {name : List String} {braced : Bool} {ts us : List Token} (h : TokensReadAlike ts us) :
      Invocation.Wrapped careful (.mk name braced ts .raw) (.mk name braced us .raw)

/-- A part is another one with expressions wrapped in it, or is an expression that is wrapped. With
care, no initialiser is wrapped that shows the type of a name. -/
inductive Part.Wrapped (careful : Bool) : Part → Part → Prop
  | type {s t : Ty} (h : s.Wrapped careful t) : Part.Wrapped careful (.type s) (.type t)
  | expr {a b : Part} {e f : Expr} (ha : a.Is e) (hb : b.Is f) (h : e.Wrapped careful f) :
      Part.Wrapped careful a b
  | pattern {x y : Pat} (h : x.Wrapped careful y) : Part.Wrapped careful (.pattern x) (.pattern y)
  | item {i j : Item} (h : i.Wrapped careful j) : Part.Wrapped careful (.item i) (.item j)
  | path {p q : Path} (h : p.Wrapped careful q) : Part.Wrapped careful (.path p) (.path q)
  | binding {as bs : List Part} {x y : Pat} {es fs : List Expr}
      (hvalue : careful = true → (Mentions.binder? x).isSome = true →
        firstMakesValue es = firstMakesValue fs)
      (hattributes : PartsWrapped careful as bs) (h : x.Wrapped careful y)
      (hvalues : ExprsWrapped careful es fs) :
      Part.Wrapped careful (.binding as x es) (.binding bs y fs)
  | group {as bs : List Part} (h : PartsWrapped careful as bs) :
      Part.Wrapped careful (.group as) (.group bs)

/-- Parts are others with expressions wrapped in them, one by one. -/
inductive PartsWrapped (careful : Bool) : List Part → List Part → Prop
  | nil : PartsWrapped careful [] []
  | cons {a b : Part} {as bs : List Part} (h : a.Wrapped careful b)
      (hrest : PartsWrapped careful as bs) : PartsWrapped careful (a :: as) (b :: bs)

end

/-- A program is another one with expressions **wrapped into macros**. -/
def SourceFile.Wrapped (careful : Bool) (p q : SourceFile) : Prop :=
  PartsWrapped careful p.parts q.parts

variable {careful : Bool}

mutual

/-- A path without anything more around its parts is **wrapped in no macro**. -/
theorem Path.Wrapped.refl : ∀ p : Path, p.Wrapped careful p
  | .mk _ segments => .mk (SegmentsWrapped.refl segments)

/-- So are its segments. -/
theorem SegmentsWrapped.refl : ∀ ss : List Segment, SegmentsWrapped careful ss ss
  | [] => .nil
  | .mk _ _ args :: rest => .cons (PartsWrapped.refl args) (SegmentsWrapped.refl rest)

/-- So is a type. -/
theorem Ty.Wrapped.refl : ∀ t : Ty, t.Wrapped careful t
  | .path p => .path (Path.Wrapped.refl p)
  | .wrapped inner => .wrapped (Ty.Wrapped.refl inner)
  | .other _ parts => .other (fun _ => rfl) (PartsWrapped.refl parts)

/-- So is an expression. -/
theorem Expr.Wrapped.refl : ∀ e : Expr, e.Wrapped careful e
  | .path _ p => .path (Path.Wrapped.refl p)
  | .qualified _ owner _ p => .qualified (Ty.Wrapped.refl owner) (Path.Wrapped.refl p)
  | .call callee args =>
    .call (fun _ => rfl) (Expr.Wrapped.refl callee) (ExprsWrapped.refl args)
  | .method receiver _ _ turbofish args =>
    .method (fun _ => rfl) (Expr.Wrapped.refl receiver) (PartsWrapped.refl turbofish)
      (ExprsWrapped.refl args)
  | .paren inner => .paren (Expr.Wrapped.refl inner)
  | .reference inner => .reference (Expr.Wrapped.refl inner)
  | .tried inner => .tried (Expr.Wrapped.refl inner)
  | .construct owner p fields =>
    .construct (PartsWrapped.refl owner) (Path.Wrapped.refl p) (PartsWrapped.refl fields)
  | .invoke i => .invoke (Invocation.Wrapped.refl i)
  | .attributed attributes inner =>
    .attributed (fun _ => rfl) (PartsWrapped.refl attributes) (Expr.Wrapped.refl inner)
  | .compound _ parts => .compound (PartsWrapped.refl parts)

/-- So are several expressions. -/
theorem ExprsWrapped.refl : ∀ es : List Expr, ExprsWrapped careful es es
  | [] => .nil
  | e :: rest => .cons (Expr.Wrapped.refl e) (ExprsWrapped.refl rest)

/-- So is a pattern. -/
theorem Pat.Wrapped.refl : ∀ x : Pat, x.Wrapped careful x
  | .bind _ parts => .bind (PartsWrapped.refl parts)
  | .typed attributes inner t =>
    .typed (PartsWrapped.refl attributes) (Pat.Wrapped.refl inner) (Ty.Wrapped.refl t)
  | .compound parts => .compound (PartsWrapped.refl parts)

/-- So is an item. -/
theorem Item.Wrapped.refl : ∀ i : Item, i.Wrapped careful i
  | .use attributes _ _ => .use (PartsWrapped.refl attributes)
  | .externCrate attributes _ _ => .externCrate (PartsWrapped.refl attributes)
  | .typeAlias parts _ t => .typeAlias (PartsWrapped.refl parts) (Ty.Wrapped.refl t)
  | .declaration _ _ parts => .declaration (PartsWrapped.refl parts)
  | .module _ parts => .module (PartsWrapped.refl parts)
  | .implementation parts selfType members =>
    .implementation (PartsWrapped.refl parts) (Ty.Wrapped.refl selfType)
      (PartsWrapped.refl members)
  | .other parts => .other (PartsWrapped.refl parts)

/-- So is the use of a macro. -/
theorem Invocation.Wrapped.refl : ∀ i : Invocation, i.Wrapped careful i
  | .mk _ _ _ (.list members) => .list (ExprsWrapped.refl members)
  | .mk _ _ tokens .raw => .raw (TokensReadAlike.refl tokens)

/-- So is a part of any kind. -/
theorem Part.Wrapped.refl : ∀ part : Part, part.Wrapped careful part
  | .type t => .type (Ty.Wrapped.refl t)
  | .expr e => .expr (.expr e) (.expr e) (Expr.Wrapped.refl e)
  | .pattern x => .pattern (Pat.Wrapped.refl x)
  | .item i => .item (Item.Wrapped.refl i)
  | .path p => .path (Path.Wrapped.refl p)
  | .invoke i => .expr (.invoke i) (.invoke i) (.invoke (Invocation.Wrapped.refl i))
  | .binding attributes x values =>
    .binding (fun _ _ => rfl) (PartsWrapped.refl attributes) (Pat.Wrapped.refl x)
      (ExprsWrapped.refl values)
  | .group parts => .group (PartsWrapped.refl parts)

/-- So are several parts. -/
theorem PartsWrapped.refl : ∀ parts : List Part, PartsWrapped careful parts parts
  | [] => .nil
  | part :: rest => .cons (Part.Wrapped.refl part) (PartsWrapped.refl rest)

end

/-- A program is itself with **nothing wrapped**. -/
theorem SourceFile.Wrapped.refl (p : SourceFile) : p.Wrapped careful p :=
  PartsWrapped.refl p.parts

/-! ### What wrapping does not change -/

/-- Wrapping leaves the name that a path is, if it is nothing but a name. -/
theorem Path.Wrapped.ident?_eq {p q : Path} : p.Wrapped careful q → p.ident? = q.ident?
  | @Path.Wrapped.mk _ global _ _ .nil => by cases global <;> rfl
  | @Path.Wrapped.mk _ global _ _ (@SegmentsWrapped.cons _ _ style _ _ _ _ _ .nil) => by
    cases global <;> cases style <;> rfl
  | @Path.Wrapped.mk _ global _ _ (@SegmentsWrapped.cons _ _ style _ _ _ _ _ (.cons _ _)) => by
    cases global <;> cases style <;> rfl

/-- Wrapping leaves the names of segments. -/
theorem SegmentsWrapped.map_name_eq : ∀ {ss ts : List Segment}, SegmentsWrapped careful ss ts →
    ss.map Segment.name = ts.map Segment.name
  | _, _, .nil => rfl
  | _, _, @SegmentsWrapped.cons _ word _ _ _ _ _ _ hrest =>
    congrArg (word.text :: ·) hrest.map_name_eq

/-- Wrapping leaves the last name of a path. -/
theorem Path.Wrapped.getLast?_name_eq {p q : Path} (h : p.Wrapped careful q) :
    p.segments.getLast?.map Segment.name = q.segments.getLast?.map Segment.name := by
  cases h with
  | mk hsegments =>
      rw [← List.getLast?_map, ← List.getLast?_map, segments, segments, hsegments.map_name_eq]

/-- Wrapping leaves the name that a pattern binds. -/
theorem Pat.Wrapped.binder?_eq {x y : Pat} (h : x.Wrapped careful y) :
    Mentions.binder? x = Mentions.binder? y := by
  cases h <;> rfl

end CapabilityGate.Program
