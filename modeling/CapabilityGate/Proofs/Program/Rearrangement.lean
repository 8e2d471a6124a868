import CapabilityGate.Program.TokenRun
import CapabilityGate.Proofs.Program.Walk

/-!
# Programs with their items moved

Two programs are rearrangements of each other when they differ in nothing but the order of the
items in their modules and function bodies, at any depth, and in the places that this gives to
the rest.

## Main definitions

* `ItemsMoved`: a list of parts with its items moved.
* `SourceFile.Rearranged`: one program is a rearrangement of another one; and the same for each
  kind of construct.

## Main results

* `TokensReadAlike.tokenPaths`: tokens at other places spell the same paths.
* `SourceFile.Rearranged.refl`: a program is a rearrangement of itself.
-/

namespace CapabilityGate.Program

/-! ### Tokens at other places -/

mutual

/-- Two tokens **read alike** when they differ in nothing but their places. -/
inductive Token.ReadsAlike : Token → Token → Prop
  | name {word : Word} {p q : Position} : Token.ReadsAlike (.name word p) (.name word q)
  | mark {c : Char} {joint : Bool} {p q : Position} :
      Token.ReadsAlike (.mark c joint p) (.mark c joint q)
  | literal {text : String} {p q : Position} :
      Token.ReadsAlike (.literal text p) (.literal text q)
  | group {delimiter : Delimiter} {body other : List Token} {p p' q q' : Position}
      (h : TokensReadAlike body other) :
      Token.ReadsAlike (.group delimiter body p p') (.group delimiter other q q')

/-- Two lists of tokens read alike, one by one. -/
inductive TokensReadAlike : List Token → List Token → Prop
  | nil : TokensReadAlike [] []
  | cons {t u : Token} {ts us : List Token} (h : t.ReadsAlike u) (hrest : TokensReadAlike ts us) :
      TokensReadAlike (t :: ts) (u :: us)

end

mutual

/-- A token reads as it does **itself**. -/
theorem Token.ReadsAlike.refl : ∀ t : Token, t.ReadsAlike t
  | .name _ _ => .name
  | .mark _ _ _ => .mark
  | .literal _ _ => .literal
  | .group _ body _ _ => .group (TokensReadAlike.refl body)

/-- So do several tokens. -/
theorem TokensReadAlike.refl : ∀ ts : List Token, TokensReadAlike ts ts
  | [] => .nil
  | t :: rest => .cons (Token.ReadsAlike.refl t) (TokensReadAlike.refl rest)

end

/-- Two scans are **alike** when they have met the same names, at whatever places. -/
structure Run.Alike (r s : Run) : Prop where
  /-- The complete runs have the same names. -/
  done : r.done.map Prod.fst = s.done.map Prod.fst
  /-- The run so far has the same names. -/
  names : r.names = s.names
  /-- It has a first name in both or in neither. -/
  start : r.start.isSome = s.start.isSome
  /-- The same stands behind the last name. -/
  separator : r.separator = s.separator
  /-- The sign of a parameter was read in both or in neither. -/
  parameter : r.parameter = s.parameter
  /-- The run starts at a parameter in both or in neither. -/
  hidden : r.hidden = s.hidden

namespace Run

variable {r s : Run}

/-- Scans that are alike are so **when a run ends**. -/
theorem Alike.flush (h : r.Alike s) : r.flush.Alike s.flush := by
  rw [Run.flush, Run.flush, h.names, h.hidden]
  have hstart := h.start
  cases hr : r.start with
  | none =>
      cases hs : s.start with
      | none => exact ⟨h.done, rfl, rfl, rfl, rfl, rfl⟩
      | some q => simp [hr, hs] at hstart
  | some p =>
      cases hs : s.start with
      | none => simp [hr, hs] at hstart
      | some q =>
          by_cases hhidden : (s.hidden || s.names.isEmpty) = true
          · simp only [hhidden, if_true]
            exact ⟨h.done, rfl, rfl, rfl, rfl, rfl⟩
          · simp only [hhidden, Bool.false_eq_true, if_false]
            exact ⟨congrArg (s.names.reverse :: ·) h.done, rfl, rfl, rfl, rfl, rfl⟩

/-- They are so when a run **begins with the same name**, at whatever places. -/
theorem Alike.begin (h : r.Alike s) (name : String) (p q : Position) (hidden : Bool) :
    (r.begin name p hidden).Alike (s.begin name q hidden) :=
  ⟨h.flush.done, rfl, rfl, h.flush.separator, h.flush.parameter, rfl⟩

/-- They are so behind the same name. -/
theorem Alike.name (h : r.Alike s) (name : String) (p q : Position) :
    (r.name name p).Alike (s.name name q) := by
  rw [Run.name, Run.name, h.parameter, h.separator]
  cases s.parameter with
  | true => exact h.begin name p q _
  | false =>
      by_cases hfull : s.separator = .full
      · simp only [hfull, if_true, Bool.false_eq_true, if_false]
        refine ⟨h.done, congrArg (name :: ·) h.names, ?_, rfl, rfl, h.hidden⟩
        cases r.start <;> cases s.start <;> rfl
      · simp only [hfull, Bool.false_eq_true, if_false]
        exact h.begin name p q _

/-- They are so behind the same mark. -/
theorem Alike.mark (h : r.Alike s) (c : Char) (joint : Bool) :
    (r.mark c joint).Alike (s.mark c joint) := by
  rw [Run.mark, Run.mark, h.separator]
  by_cases hcolon : (c == ':') = true
  · simp only [hcolon, if_true]
    cases s.separator with
    | nothing =>
        cases joint with
        | true => exact ⟨h.done, h.names, h.start, rfl, h.parameter, h.hidden⟩
        | false => exact h.flush
    | half => exact ⟨h.done, h.names, h.start, rfl, h.parameter, h.hidden⟩
    | full => exact h.flush
  · simp only [hcolon, Bool.false_eq_true, if_false]
    by_cases hsign : (c == '$') = true
    · simp only [hsign, if_true]
      exact ⟨h.flush.done, h.flush.names, h.flush.start, h.flush.separator, rfl, h.flush.hidden⟩
    · simp only [hsign, Bool.false_eq_true, if_false]
      exact h.flush

mutual

/-- Scans that are alike are so **behind tokens that read alike**. -/
theorem Alike.token {r s : Run} {t u : Token} (h : r.Alike s) :
    t.ReadsAlike u → (r.token t).Alike (s.token u)
  | .name => by
    rw [Run.token, Run.token]
    exact h.name _ _ _
  | .mark => by
    rw [Run.token, Run.token]
    exact h.mark _ _
  | .literal => by
    rw [Run.token, Run.token]
    exact h.flush
  | .group hbody => by
    rw [Run.token, Run.token]
    exact (Alike.tokens h.flush hbody).flush

/-- They are so behind several of them. -/
theorem Alike.tokens {r s : Run} {ts us : List Token} (h : r.Alike s) :
    TokensReadAlike ts us → (r.tokens ts).Alike (s.tokens us)
  | .nil => by
    rw [Run.tokens, Run.tokens]
    exact h
  | .cons ht hrest => by
    rw [Run.tokens, Run.tokens]
    exact Alike.tokens (Alike.token h ht) hrest

end

end Run

/-- Tokens that read alike spell **the same paths**. -/
theorem TokensReadAlike.tokenPaths {ts us : List Token} (h : TokensReadAlike ts us) :
    (tokenPaths ts).map Prod.fst = (tokenPaths us).map Prod.fst := by
  have hempty : Run.empty.Alike .empty := ⟨rfl, rfl, rfl, rfl, rfl, rfl⟩
  rw [Program.tokenPaths, Program.tokenPaths, List.map_reverse, List.map_reverse,
    (Run.Alike.tokens hempty h).flush.done]

/-! ### Rearrangements -/

/-- Whether a part is an item. -/
def Part.isItem : Part → Bool
  | .item _ => true
  | _ => false

/-- A list of parts with its **items moved**: it has the same parts, and those that are no items
keep their order. -/
structure ItemsMoved (before after : List Part) : Prop where
  /-- The parts are the same. -/
  perm : before.Perm after
  /-- What is no item keeps its order. -/
  others : before.filter (!·.isItem) = after.filter (!·.isItem)

mutual

/-- A path is a **rearrangement** of another one when they differ in nothing but the order of the
items in the bodies within them, and in places. -/
inductive Path.Rearranged : Path → Path → Prop
  | mk {global : Bool} {ss ts : List Segment} (h : SegmentsRearranged ss ts) :
      Path.Rearranged (.mk global ss) (.mk global ts)

/-- Segments are rearrangements of others, one by one. -/
inductive SegmentsRearranged : List Segment → List Segment → Prop
  | nil : SegmentsRearranged [] []
  | cons {word : Word} {style : ArgumentStyle} {as bs : List Part} {ss ts : List Segment}
      (h : PartsRearranged as bs) (hrest : SegmentsRearranged ss ts) :
      SegmentsRearranged (.mk word style as :: ss) (.mk word style bs :: ts)

/-- A type is a rearrangement of another one. -/
inductive Ty.Rearranged : Ty → Ty → Prop
  | path {p q : Path} (h : p.Rearranged q) : Ty.Rearranged (.path p) (.path q)
  | wrapped {s t : Ty} (h : s.Rearranged t) : Ty.Rearranged (.wrapped s) (.wrapped t)
  | other {text : String} {as bs : List Part} (h : PartsRearranged as bs) :
      Ty.Rearranged (.other text as) (.other text bs)

/-- An expression is a rearrangement of another one. -/
inductive Expr.Rearranged : Expr → Expr → Prop
  | path {at_ other : Position} {p q : Path} (h : p.Rearranged q) :
      Expr.Rearranged (.path at_ p) (.path other q)
  | qualified {at_ other : Position} {s t : Ty} {position : Nat} {p q : Path}
      (howner : s.Rearranged t) (h : p.Rearranged q) :
      Expr.Rearranged (.qualified at_ s position p) (.qualified other t position q)
  | call {e f : Expr} {as bs : List Expr} (h : e.Rearranged f) (hargs : ExprsRearranged as bs) :
      Expr.Rearranged (.call e as) (.call f bs)
  | method {e f : Expr} {name : Word} {at_ other : Position} {ps qs : List Part} {as bs : List Expr}
      (h : e.Rearranged f) (hturbofish : PartsRearranged ps qs) (hargs : ExprsRearranged as bs) :
      Expr.Rearranged (.method e name at_ ps as) (.method f name other qs bs)
  | paren {e f : Expr} (h : e.Rearranged f) : Expr.Rearranged (.paren e) (.paren f)
  | reference {e f : Expr} (h : e.Rearranged f) : Expr.Rearranged (.reference e) (.reference f)
  | tried {e f : Expr} (h : e.Rearranged f) : Expr.Rearranged (.tried e) (.tried f)
  | construct {ps qs as bs : List Part} {p q : Path} (howner : PartsRearranged ps qs)
      (h : p.Rearranged q) (hfields : PartsRearranged as bs) :
      Expr.Rearranged (.construct ps p as) (.construct qs q bs)
  | invoke {i j : Invocation} (h : i.Rearranged j) : Expr.Rearranged (.invoke i) (.invoke j)
  | attributed {as bs : List Part} {e f : Expr} (hattributes : PartsRearranged as bs)
      (h : e.Rearranged f) : Expr.Rearranged (.attributed as e) (.attributed bs f)
  | compound {form : Form} {as bs : List Part} (h : PartsRearranged as bs) :
      Expr.Rearranged (.compound form as) (.compound form bs)

/-- Expressions are rearrangements of others, one by one. -/
inductive ExprsRearranged : List Expr → List Expr → Prop
  | nil : ExprsRearranged [] []
  | cons {e f : Expr} {es fs : List Expr} (h : e.Rearranged f) (hrest : ExprsRearranged es fs) :
      ExprsRearranged (e :: es) (f :: fs)

/-- A pattern is a rearrangement of another one. -/
inductive Pat.Rearranged : Pat → Pat → Prop
  | bind {name : Word} {as bs : List Part} (h : PartsRearranged as bs) :
      Pat.Rearranged (.bind name as) (.bind name bs)
  | typed {as bs : List Part} {x y : Pat} {s t : Ty} (hattributes : PartsRearranged as bs)
      (h : x.Rearranged y) (htype : s.Rearranged t) : Pat.Rearranged (.typed as x s) (.typed bs y t)
  | compound {as bs : List Part} (h : PartsRearranged as bs) :
      Pat.Rearranged (.compound as) (.compound bs)

/-- An item is a rearrangement of another one. -/
inductive Item.Rearranged : Item → Item → Prop
  | use {as bs : List Part} {global : Bool} {tree : UseTree} (h : PartsRearranged as bs) :
      Item.Rearranged (.use as global tree) (.use bs global tree)
  | externCrate {as bs : List Part} {name : Word} {alias_ : Option Word}
      (h : PartsRearranged as bs) :
      Item.Rearranged (.externCrate as name alias_) (.externCrate bs name alias_)
  | typeAlias {as bs : List Part} {name : Word} {s t : Ty} (h : PartsRearranged as bs)
      (htype : s.Rearranged t) : Item.Rearranged (.typeAlias as name s) (.typeAlias bs name t)
  | declaration {kind : Declared} {name : Word} {as bs : List Part} (h : PartsRearranged as bs) :
      Item.Rearranged (.declaration kind name as) (.declaration kind name bs)
  | module {name : Word} {as bs : List Part} (h : PartsRearranged as bs) :
      Item.Rearranged (.module name as) (.module name bs)
  | implementation {as bs ms ns : List Part} {s t : Ty} (h : PartsRearranged as bs)
      (htype : s.Rearranged t) (hmembers : PartsRearranged ms ns) :
      Item.Rearranged (.implementation as s ms) (.implementation bs t ns)
  | other {as bs : List Part} (h : PartsRearranged as bs) :
      Item.Rearranged (.other as) (.other bs)

/-- A use of a macro is a rearrangement of another one. Where the tokens read as expressions it is
these that are rearranged. -/
inductive Invocation.Rearranged : Invocation → Invocation → Prop
  | list {name : List String} {braced : Bool} {ts us : List Token} {es fs : List Expr}
      (h : ExprsRearranged es fs) :
      Invocation.Rearranged (.mk name braced ts (.list es)) (.mk name braced us (.list fs))
  | raw {name : List String} {braced : Bool} {ts us : List Token} (h : TokensReadAlike ts us) :
      Invocation.Rearranged (.mk name braced ts .raw) (.mk name braced us .raw)

/-- A part is a rearrangement of another one. -/
inductive Part.Rearranged : Part → Part → Prop
  | type {s t : Ty} (h : s.Rearranged t) : Part.Rearranged (.type s) (.type t)
  | expr {e f : Expr} (h : e.Rearranged f) : Part.Rearranged (.expr e) (.expr f)
  | pattern {x y : Pat} (h : x.Rearranged y) : Part.Rearranged (.pattern x) (.pattern y)
  | item {i j : Item} (h : i.Rearranged j) : Part.Rearranged (.item i) (.item j)
  | path {p q : Path} (h : p.Rearranged q) : Part.Rearranged (.path p) (.path q)
  | invoke {i j : Invocation} (h : i.Rearranged j) : Part.Rearranged (.invoke i) (.invoke j)
  | binding {as bs : List Part} {x y : Pat} {es fs : List Expr}
      (hattributes : PartsRearranged as bs) (h : x.Rearranged y)
      (hvalues : ExprsRearranged es fs) :
      Part.Rearranged (.binding as x es) (.binding bs y fs)
  | group {as bs : List Part} (h : PartsRearranged as bs) : Part.Rearranged (.group as) (.group bs)

/-- Parts are rearrangements of others, **one by one**. -/
inductive PartsInPlace : List Part → List Part → Prop
  | nil : PartsInPlace [] []
  | cons {a b : Part} {as bs : List Part} (h : a.Rearranged b) (hrest : PartsInPlace as bs) :
      PartsInPlace (a :: as) (b :: bs)

/-- Parts are a rearrangement of others: one by one, and then **with their items moved**. -/
inductive PartsRearranged : List Part → List Part → Prop
  | mk {before between after : List Part} (h : PartsInPlace before between)
      (hmoved : ItemsMoved between after) : PartsRearranged before after

end

/-- A program is a **rearrangement** of another one when they differ in nothing but the order of
the items in their modules and function bodies, and in places. -/
def SourceFile.Rearranged (p q : SourceFile) : Prop :=
  PartsRearranged p.parts q.parts

/-- Parts **that stay where they are** are moved in this sense. -/
theorem ItemsMoved.refl (parts : List Part) : ItemsMoved parts parts :=
  ⟨.refl parts, rfl⟩

/-- Parts that are rearranged one by one are rearranged. -/
theorem PartsInPlace.rearranged {as bs : List Part} (h : PartsInPlace as bs) :
    PartsRearranged as bs :=
  .mk h (.refl bs)

mutual

/-- A path is a rearrangement of itself. -/
theorem Path.Rearranged.refl : ∀ p : Path, p.Rearranged p
  | .mk _ segments => .mk (SegmentsRearranged.refl segments)

/-- So are the segments of a path. -/
theorem SegmentsRearranged.refl : ∀ ss : List Segment, SegmentsRearranged ss ss
  | [] => .nil
  | .mk _ _ args :: rest => .cons (PartsInPlace.refl args).rearranged (SegmentsRearranged.refl rest)

/-- So is a type. -/
theorem Ty.Rearranged.refl : ∀ t : Ty, t.Rearranged t
  | .path p => .path (Path.Rearranged.refl p)
  | .wrapped inner => .wrapped (Ty.Rearranged.refl inner)
  | .other _ parts => .other (PartsInPlace.refl parts).rearranged

/-- So is an expression, which then **stands where it does**. -/
theorem Expr.Rearranged.refl : ∀ e : Expr, e.Rearranged e
  | .path _ p => .path (Path.Rearranged.refl p)
  | .qualified _ owner _ p => .qualified (Ty.Rearranged.refl owner) (Path.Rearranged.refl p)
  | .call callee args => .call (Expr.Rearranged.refl callee) (ExprsRearranged.refl args)
  | .method receiver _ _ turbofish args =>
    .method (Expr.Rearranged.refl receiver) (PartsInPlace.refl turbofish).rearranged
      (ExprsRearranged.refl args)
  | .paren inner => .paren (Expr.Rearranged.refl inner)
  | .reference inner => .reference (Expr.Rearranged.refl inner)
  | .tried inner => .tried (Expr.Rearranged.refl inner)
  | .construct owner p fields =>
    .construct (PartsInPlace.refl owner).rearranged (Path.Rearranged.refl p)
      (PartsInPlace.refl fields).rearranged
  | .invoke i => .invoke (Invocation.Rearranged.refl i)
  | .attributed attributes inner =>
    .attributed (PartsInPlace.refl attributes).rearranged (Expr.Rearranged.refl inner)
  | .compound _ parts => .compound (PartsInPlace.refl parts).rearranged

/-- So are several expressions. -/
theorem ExprsRearranged.refl : ∀ es : List Expr, ExprsRearranged es es
  | [] => .nil
  | e :: rest => .cons (Expr.Rearranged.refl e) (ExprsRearranged.refl rest)

/-- So is a pattern. -/
theorem Pat.Rearranged.refl : ∀ x : Pat, x.Rearranged x
  | .bind _ parts => .bind (PartsInPlace.refl parts).rearranged
  | .typed attributes inner t =>
    .typed (PartsInPlace.refl attributes).rearranged (Pat.Rearranged.refl inner)
      (Ty.Rearranged.refl t)
  | .compound parts => .compound (PartsInPlace.refl parts).rearranged

/-- So is an item. -/
theorem Item.Rearranged.refl : ∀ i : Item, i.Rearranged i
  | .use attributes _ _ => .use (PartsInPlace.refl attributes).rearranged
  | .externCrate attributes _ _ => .externCrate (PartsInPlace.refl attributes).rearranged
  | .typeAlias parts _ t => .typeAlias (PartsInPlace.refl parts).rearranged (Ty.Rearranged.refl t)
  | .declaration _ _ parts => .declaration (PartsInPlace.refl parts).rearranged
  | .module _ parts => .module (PartsInPlace.refl parts).rearranged
  | .implementation parts selfType members =>
    .implementation (PartsInPlace.refl parts).rearranged (Ty.Rearranged.refl selfType)
      (PartsInPlace.refl members).rearranged
  | .other parts => .other (PartsInPlace.refl parts).rearranged

/-- So is the use of a macro. -/
theorem Invocation.Rearranged.refl : ∀ i : Invocation, i.Rearranged i
  | .mk _ _ _ (.list members) => .list (ExprsRearranged.refl members)
  | .mk _ _ tokens .raw => .raw (TokensReadAlike.refl tokens)

/-- So is a part of any kind. -/
theorem Part.Rearranged.refl : ∀ part : Part, part.Rearranged part
  | .type t => .type (Ty.Rearranged.refl t)
  | .expr e => .expr (Expr.Rearranged.refl e)
  | .pattern x => .pattern (Pat.Rearranged.refl x)
  | .item i => .item (Item.Rearranged.refl i)
  | .path p => .path (Path.Rearranged.refl p)
  | .invoke i => .invoke (Invocation.Rearranged.refl i)
  | .binding attributes x values =>
    .binding (PartsInPlace.refl attributes).rearranged (Pat.Rearranged.refl x)
      (ExprsRearranged.refl values)
  | .group parts => .group (PartsInPlace.refl parts).rearranged

/-- Parts are rearrangements of themselves **one by one**. -/
theorem PartsInPlace.refl : ∀ parts : List Part, PartsInPlace parts parts
  | [] => .nil
  | part :: rest => .cons (Part.Rearranged.refl part) (PartsInPlace.refl rest)

end

/-- Parts with their items moved are a **rearrangement**. -/
theorem ItemsMoved.rearranged {before after : List Part} (h : ItemsMoved before after) :
    PartsRearranged before after :=
  .mk (.refl before) h

/-- A program is a rearrangement of itself. -/
theorem SourceFile.Rearranged.refl (p : SourceFile) : p.Rearranged p :=
  (ItemsMoved.refl p.parts).rearranged

/-! ### What no rearrangement changes -/

/-- Rearranged paths are the same name, if they are nothing but a name. -/
theorem Path.Rearranged.ident?_eq {p q : Path} : p.Rearranged q → p.ident? = q.ident?
  | @Path.Rearranged.mk global _ _ .nil => by cases global <;> rfl
  | @Path.Rearranged.mk global _ _ (@SegmentsRearranged.cons _ style _ _ _ _ _ .nil) => by
    cases global <;> cases style <;> rfl
  | @Path.Rearranged.mk global _ _ (@SegmentsRearranged.cons _ style _ _ _ _ _ (.cons _ _)) => by
    cases global <;> cases style <;> rfl

/-- Rearranged segments have the same names. -/
theorem SegmentsRearranged.map_name_eq : ∀ {ss ts : List Segment}, SegmentsRearranged ss ts →
    ss.map Segment.name = ts.map Segment.name
  | _, _, .nil => rfl
  | _, _, @SegmentsRearranged.cons word _ _ _ _ _ _ hrest =>
    congrArg (word.text :: ·) hrest.map_name_eq

/-- Rearranged paths end with the same name. -/
theorem Path.Rearranged.getLast?_name_eq {p q : Path} (h : p.Rearranged q) :
    p.segments.getLast?.map Segment.name = q.segments.getLast?.map Segment.name := by
  cases h with
  | mk hsegments =>
      rw [← List.getLast?_map, ← List.getLast?_map, segments, segments, hsegments.map_name_eq]

end CapabilityGate.Program
