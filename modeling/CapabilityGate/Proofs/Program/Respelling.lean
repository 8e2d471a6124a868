import Mathlib.Data.List.Forall2
import CapabilityGate.Proofs.Capability.PathText
import CapabilityGate.Proofs.Program.Walk
import CapabilityGate.Proofs.Resolution.Reexport

/-!
# Programs in another spelling

Two programs are related when they are the same but for the spelling of their words: each word of
the one is written in another way in the other one, the same word in the same way wherever it
stands. What name resolution knows by itself, such as the primitive types, keeps its spelling. The
roots of the standard library may be exchanged at the start of a path besides.

## Main definitions

* `Spelling`: which words are spelled in which way.
* `SourceFile.Respelled`: one program is another one in another spelling; and the same for each
  kind of construct.

## Main results

* `Spelling.Name.eq_iff`: a name is a certain word in both spellings or in neither.
* `Path.Respelled.ident?_isSome`: a path that is a lone name is one in another spelling.
-/

namespace CapabilityGate

open Program

open List (Forall₂)

/-! ### Spellings -/

/-- The names that **name resolution knows** by itself, or compares names with. -/
def knownNames : List String :=
  pathRoots ++ primitives ++ preludePaths.map Prod.fst ++
    preludePaths.flatMap (fun entry => splitPath entry.2) ++ constructors ++
    ["unwrap", "expect", "_"]

/-- A **spelling** of the words of one program as those of another one. -/
structure Spelling where
  /-- The first word is spelled as the second one. -/
  word : String → String → Prop
  /-- The roots of the standard library may be exchanged. -/
  roots : Bool
  /-- Words are spelled as words. -/
  isWord : ∀ {a b : String}, word a b → isWord a = true ∧ isWord b = true
  /-- The same words are spelled in the same way, and different ones differently. -/
  eq_iff : ∀ {a b c d : String}, word a b → word c d → (a = c ↔ b = d)
  /-- A word starts with a lower case letter as before. -/
  startsLower_eq : ∀ {a b : String}, word a b → Names.startsLower a = Names.startsLower b
  /-- Known names keep their spelling. -/
  known : ∀ name ∈ knownNames, word name name
  /-- Where roots are exchanged, all other words keep their spelling. -/
  eq_of_roots : roots = true → ∀ {a b : String}, word a b → a = b

namespace Spelling

variable (σ : Spelling)

/-- Two names **stand for the same** in two spellings though they are no words, such as the parts
that the text of an array type is cut into: no program declares them. They are the same, or neither
of them can be denied. -/
structure Other (a b : String) : Prop where
  /-- The first one is no word. -/
  left : Program.isWord a = false
  /-- Nor is the second one. -/
  right : Program.isWord b = false
  /-- The first one is not cut where it stands in a path. -/
  leftPart : isPart a = true
  /-- Nor is the second one. -/
  rightPart : isPart b = true
  /-- Both start with a lower case letter, or neither does. -/
  startsLower_eq : Names.startsLower a = Names.startsLower b
  /-- They are the same, or neither is what a denied path is made of. -/
  eq_or : a = b ∨ (a ≠ "" ∧ isIdentifier a.toList = false) ∧ b ≠ "" ∧ isIdentifier b.toList = false

/-- The first name is spelled as the second one, or stands for the same. -/
def Name (a b : String) : Prop :=
  σ.word a b ∨ Other a b

/-- The first word at the start of a path is spelled as the second one, or both are roots of the
standard library that are exchanged. -/
def First (a b : String) : Prop :=
  σ.word a b ∨ σ.roots = true ∧ a ∈ standardRoots ∧ b ∈ standardRoots

/-- Two texts **stand for the same type** in two spellings when all parts that they are cut into
do. -/
def Text (text other : String) : Prop :=
  Forall₂ σ.Name (splitPath (normalPath text)) (splitPath (normalPath other))

end Spelling

namespace Program

/-! ### Constructs in another spelling -/

mutual

/-- A token is another one in another spelling, at whatever place. -/
inductive Token.Respelled (σ : Spelling) : Token → Token → Prop
  | name {v w : Word} {p q : Position} (h : σ.word v.text w.text) :
      Token.Respelled σ (.name v p) (.name w q)
  | mark {c : Char} {joint : Bool} {p q : Position} :
      Token.Respelled σ (.mark c joint p) (.mark c joint q)
  | literal {text other : String} {p q : Position} :
      Token.Respelled σ (.literal text p) (.literal other q)
  | group {delimiter : Delimiter} {body other : List Token} {p p' q q' : Position}
      (h : TokensRespelled σ body other) :
      Token.Respelled σ (.group delimiter body p p') (.group delimiter other q q')

/-- Tokens are others in another spelling, one by one. -/
inductive TokensRespelled (σ : Spelling) : List Token → List Token → Prop
  | nil : TokensRespelled σ [] []
  | cons {t u : Token} {ts us : List Token} (h : t.Respelled σ u)
      (hrest : TokensRespelled σ ts us) : TokensRespelled σ (t :: ts) (u :: us)

end

mutual

/-- What a `use` item imports is the same in another spelling. `top` says that nothing stands
above it, so that it starts a path. -/
inductive UseTree.Respelled (σ : Spelling) : (top : Bool) → UseTree → UseTree → Prop
  | name {top : Bool} {v w : Word} (h : σ.word v.text w.text) :
      UseTree.Respelled σ top (.name v) (.name w)
  | rename {top : Bool} {v w a b : Word} (h : σ.word v.text w.text ∨ top ∧ σ.First v.text w.text)
      (halias : σ.word a.text b.text) : UseTree.Respelled σ top (.rename v a) (.rename w b)
  | glob {top : Bool} : UseTree.Respelled σ top .glob .glob
  | under {top : Bool} {v w : Word} {t u : UseTree}
      (h : σ.word v.text w.text ∨ top ∧ σ.First v.text w.text)
      (htree : t.Respelled σ false u) : UseTree.Respelled σ top (.under v t) (.under w u)
  | group {top : Bool} {ts us : List UseTree} (h : UseTreesRespelled σ top ts us) :
      UseTree.Respelled σ top (.group ts) (.group us)

/-- What several trees import is the same in another spelling. -/
inductive UseTreesRespelled (σ : Spelling) : (top : Bool) → List UseTree → List UseTree → Prop
  | nil {top : Bool} : UseTreesRespelled σ top [] []
  | cons {top : Bool} {t u : UseTree} {ts us : List UseTree} (h : t.Respelled σ top u)
      (hrest : UseTreesRespelled σ top ts us) : UseTreesRespelled σ top (t :: ts) (u :: us)

end

mutual

/-- A path is another one **in another spelling**. -/
inductive Path.Respelled (σ : Spelling) : Path → Path → Prop
  | mk {global : Bool} {ss ts : List Segment} (h : SegmentsRespelled σ ss ts) :
      Path.Respelled σ (.mk global ss) (.mk global ts)
  | root {global : Bool} {v w : Word} {style : ArgumentStyle} {as bs : List Part}
      {ss ts : List Segment} (hroots : σ.roots = true) (hv : v.text ∈ standardRoots)
      (hw : w.text ∈ standardRoots) (h : PartsRespelled σ as bs)
      (hrest : SegmentsRespelled σ ss ts) :
      Path.Respelled σ (.mk global (.mk v style as :: ss)) (.mk global (.mk w style bs :: ts))

/-- Segments are others in another spelling, one by one. -/
inductive SegmentsRespelled (σ : Spelling) : List Segment → List Segment → Prop
  | nil : SegmentsRespelled σ [] []
  | cons {v w : Word} {style : ArgumentStyle} {as bs : List Part} {ss ts : List Segment}
      (hword : σ.word v.text w.text) (h : PartsRespelled σ as bs)
      (hrest : SegmentsRespelled σ ss ts) :
      SegmentsRespelled σ (.mk v style as :: ss) (.mk w style bs :: ts)

/-- A type is another one in another spelling. One that is known by its text has a text for the
same. -/
inductive Ty.Respelled (σ : Spelling) : Ty → Ty → Prop
  | path {p q : Path} (hne : p.segments ≠ []) (h : p.Respelled σ q) :
      Ty.Respelled σ (.path p) (.path q)
  | wrapped {s t : Ty} (h : s.Respelled σ t) : Ty.Respelled σ (.wrapped s) (.wrapped t)
  | other {text other : String} {as bs : List Part} (htext : σ.Text text other)
      (h : PartsRespelled σ as bs) : Ty.Respelled σ (.other text as) (.other other bs)

/-- An expression is another one in another spelling. No root is exchanged where a lone name may
be that of a variable, and none where it is that of a method. -/
inductive Expr.Respelled (σ : Spelling) : Expr → Expr → Prop
  | path {at_ other : Position} {p q : Path} (h : p.Respelled σ q)
      (hlone : ∀ a b, p.ident? = some a → q.ident? = some b → σ.word a b) :
      Expr.Respelled σ (.path at_ p) (.path other q)
  | qualified {at_ other : Position} {s t : Ty} {position : Nat} {p q : Path}
      (howner : s.Respelled σ t) (h : p.Respelled σ q)
      (hmethod : position = 0 ∨ p.segments.length ≤ 1 →
        SegmentsRespelled σ p.segments q.segments) :
      Expr.Respelled σ (.qualified at_ s position p) (.qualified other t position q)
  | call {e f : Expr} {as bs : List Expr} (h : e.Respelled σ f) (hargs : ExprsRespelled σ as bs) :
      Expr.Respelled σ (.call e as) (.call f bs)
  | method {e f : Expr} {v w : Word} {at_ other : Position} {ps qs : List Part}
      {as bs : List Expr} (h : e.Respelled σ f) (hname : σ.word v.text w.text)
      (hturbofish : PartsRespelled σ ps qs) (hargs : ExprsRespelled σ as bs) :
      Expr.Respelled σ (.method e v at_ ps as) (.method f w other qs bs)
  | paren {e f : Expr} (h : e.Respelled σ f) : Expr.Respelled σ (.paren e) (.paren f)
  | reference {e f : Expr} (h : e.Respelled σ f) : Expr.Respelled σ (.reference e) (.reference f)
  | tried {e f : Expr} (h : e.Respelled σ f) : Expr.Respelled σ (.tried e) (.tried f)
  | construct {ps qs as bs : List Part} {p q : Path} (howner : PartsRespelled σ ps qs)
      (h : p.Respelled σ q) (hfields : PartsRespelled σ as bs) :
      Expr.Respelled σ (.construct ps p as) (.construct qs q bs)
  | invoke {i j : Invocation} (h : i.Respelled σ j) : Expr.Respelled σ (.invoke i) (.invoke j)
  | attributed {as bs : List Part} {e f : Expr} (hattributes : PartsRespelled σ as bs)
      (h : e.Respelled σ f) : Expr.Respelled σ (.attributed as e) (.attributed bs f)
  | compound {form : Form} {as bs : List Part} (h : PartsRespelled σ as bs) :
      Expr.Respelled σ (.compound form as) (.compound form bs)

/-- Expressions are others in another spelling, one by one. -/
inductive ExprsRespelled (σ : Spelling) : List Expr → List Expr → Prop
  | nil : ExprsRespelled σ [] []
  | cons {e f : Expr} {es fs : List Expr} (h : e.Respelled σ f) (hrest : ExprsRespelled σ es fs) :
      ExprsRespelled σ (e :: es) (f :: fs)

/-- A pattern is another one in another spelling. -/
inductive Pat.Respelled (σ : Spelling) : Pat → Pat → Prop
  | bind {v w : Word} {as bs : List Part} (hname : σ.word v.text w.text)
      (h : PartsRespelled σ as bs) : Pat.Respelled σ (.bind v as) (.bind w bs)
  | typed {as bs : List Part} {x y : Pat} {s t : Ty} (hattributes : PartsRespelled σ as bs)
      (h : x.Respelled σ y) (htype : s.Respelled σ t) :
      Pat.Respelled σ (.typed as x s) (.typed bs y t)
  | compound {as bs : List Part} (h : PartsRespelled σ as bs) :
      Pat.Respelled σ (.compound as) (.compound bs)

/-- An item is another one in another spelling. -/
inductive Item.Respelled (σ : Spelling) : Item → Item → Prop
  | use {as bs : List Part} {global : Bool} {t u : UseTree} (h : PartsRespelled σ as bs)
      (htree : t.Respelled σ true u) : Item.Respelled σ (.use as global t) (.use bs global u)
  | externCrate {as bs : List Part} {v w : Word} {a b : Option Word} (h : PartsRespelled σ as bs)
      (hname : σ.word v.text w.text)
      (halias : Option.Rel σ.word (a.map Word.text) (b.map Word.text)) :
      Item.Respelled σ (.externCrate as v a) (.externCrate bs w b)
  | typeAlias {as bs : List Part} {v w : Word} {s t : Ty} (h : PartsRespelled σ as bs)
      (hname : σ.word v.text w.text) (htype : s.Respelled σ t) :
      Item.Respelled σ (.typeAlias as v s) (.typeAlias bs w t)
  | declaration {kind : Declared} {v w : Word} {as bs : List Part}
      (hname : σ.word v.text w.text) (h : PartsRespelled σ as bs) :
      Item.Respelled σ (.declaration kind v as) (.declaration kind w bs)
  | module {v w : Word} {as bs : List Part} (hname : σ.word v.text w.text)
      (h : PartsRespelled σ as bs) : Item.Respelled σ (.module v as) (.module w bs)
  | implementation {as bs ms ns : List Part} {s t : Ty} (h : PartsRespelled σ as bs)
      (htype : s.Respelled σ t) (hmembers : PartsRespelled σ ms ns) :
      Item.Respelled σ (.implementation as s ms) (.implementation bs t ns)
  | other {as bs : List Part} (h : PartsRespelled σ as bs) :
      Item.Respelled σ (.other as) (.other bs)

/-- A use of a macro is another one in another spelling. The path of the macro does not count. -/
inductive Invocation.Respelled (σ : Spelling) : Invocation → Invocation → Prop
  | list {name other : List String} {braced : Bool} {ts us : List Token} {es fs : List Expr}
      (h : ExprsRespelled σ es fs) :
      Invocation.Respelled σ (.mk name braced ts (.list es)) (.mk other braced us (.list fs))
  | raw {name other : List String} {braced : Bool} {ts us : List Token}
      (h : TokensRespelled σ ts us) :
      Invocation.Respelled σ (.mk name braced ts .raw) (.mk other braced us .raw)

/-- A part is another one in another spelling. -/
inductive Part.Respelled (σ : Spelling) : Part → Part → Prop
  | type {s t : Ty} (h : s.Respelled σ t) : Part.Respelled σ (.type s) (.type t)
  | expr {e f : Expr} (h : e.Respelled σ f) : Part.Respelled σ (.expr e) (.expr f)
  | pattern {x y : Pat} (h : x.Respelled σ y) : Part.Respelled σ (.pattern x) (.pattern y)
  | item {i j : Item} (h : i.Respelled σ j) : Part.Respelled σ (.item i) (.item j)
  | path {p q : Path} (h : p.Respelled σ q) : Part.Respelled σ (.path p) (.path q)
  | invoke {i j : Invocation} (h : i.Respelled σ j) : Part.Respelled σ (.invoke i) (.invoke j)
  | binding {as bs : List Part} {x y : Pat} {es fs : List Expr}
      (hattributes : PartsRespelled σ as bs) (h : x.Respelled σ y)
      (hvalues : ExprsRespelled σ es fs) :
      Part.Respelled σ (.binding as x es) (.binding bs y fs)
  | group {as bs : List Part} (h : PartsRespelled σ as bs) :
      Part.Respelled σ (.group as) (.group bs)

/-- Parts are others in another spelling, one by one. -/
inductive PartsRespelled (σ : Spelling) : List Part → List Part → Prop
  | nil : PartsRespelled σ [] []
  | cons {a b : Part} {as bs : List Part} (h : a.Respelled σ b)
      (hrest : PartsRespelled σ as bs) : PartsRespelled σ (a :: as) (b :: bs)

end

/-- A program is another one **in another spelling**. -/
def SourceFile.Respelled (σ : Spelling) (p q : SourceFile) : Prop :=
  PartsRespelled σ p.parts q.parts

end Program

/-! ### Names in another spelling -/

namespace Spelling

variable {σ : Spelling} {a b c d name : String}

/-- A name is a certain word in one spelling **if and only if** it is that word as it is spelled in
the other one. -/
theorem Name.eq_iff (h : σ.Name a b) (hword : σ.word c d) : a = c ↔ b = d := by
  rcases h with hab | hab
  · exact σ.eq_iff hab hword
  · obtain ⟨hc, hd⟩ := σ.isWord hword
    constructor
    · rintro rfl
      exact Bool.noConfusion (hc.symm.trans hab.left)
    · rintro rfl
      exact Bool.noConfusion (hd.symm.trans hab.right)

/-- Known names are spelled **as themselves**. -/
theorem Name.of_known (h : name ∈ knownNames) : σ.Name name name :=
  Or.inl (σ.known name h)

/-- A name is a known one in both spellings or in neither. -/
theorem Name.eq_known_iff (h : σ.Name a b) (hname : name ∈ knownNames) : a = name ↔ b = name :=
  h.eq_iff (σ.known name hname)

/-- A name is **a certain known name** in both spellings or in neither. -/
theorem Name.beq_known (h : σ.Name a b) (hname : name ∈ knownNames) : (a == name) = (b == name) :=
  Bool.eq_iff_iff.mpr (by simpa using h.eq_known_iff hname)

/-- A name is among known ones in both spellings or in neither. -/
theorem Name.contains_known (h : σ.Name a b) {names : List String}
    (hnames : ∀ name ∈ names, name ∈ knownNames) : names.contains a = names.contains b := by
  rw [Bool.eq_iff_iff, List.contains_iff_mem, List.contains_iff_mem]
  constructor
  · intro ha
    exact (h.eq_known_iff (hnames a ha)).mp rfl ▸ ha
  · intro hb
    exact (h.eq_known_iff (hnames b hb)).mpr rfl ▸ hb

/-- The first letter of a name is **small** in both spellings or in neither. -/
theorem Name.startsLower_eq (h : σ.Name a b) : Names.startsLower a = Names.startsLower b := by
  rcases h with h | h
  · exact σ.startsLower_eq h
  · exact h.startsLower_eq

/-- Names are **parts of paths** in both spellings. -/
theorem Name.isPart (h : σ.Name a b) : isPart a = true ∧ isPart b = true := by
  rcases h with h | h
  · obtain ⟨ha, hb⟩ := σ.isWord h
    exact ⟨isPart_of_isWord ha, isPart_of_isWord hb⟩
  · exact ⟨h.leftPart, h.rightPart⟩

/-- A name is **empty** in both spellings or in neither. -/
theorem Name.eq_empty_iff (h : σ.Name a b) : a = "" ↔ b = "" := by
  have hempty : ∀ {c d : String}, σ.word c d → c ≠ "" ∧ d ≠ "" := by
    intro c d hword
    obtain ⟨hc, hd⟩ := σ.isWord hword
    constructor
    · rintro rfl
      exact Bool.noConfusion hc
    · rintro rfl
      exact Bool.noConfusion hd
  rcases h with h | h
  · exact iff_of_false (hempty h).1 (hempty h).2
  · rcases h.eq_or with rfl | ⟨⟨ha, -⟩, hb, -⟩
    · exact Iff.rfl
    · exact iff_of_false ha hb

/-- What a denied path is made of is the same in both spellings, if it **keeps its spelling**. -/
theorem Name.eq_denied_iff (h : σ.Name a b) (hname : isIdentifier name.toList = true)
    (hkept : Program.isWord name = true → σ.word name name) : a = name ↔ b = name := by
  rcases h with hab | hab
  · obtain ⟨ha, hb⟩ := σ.isWord hab
    constructor
    · rintro rfl
      exact (σ.eq_iff hab (hkept ha)).mp rfl
    · rintro rfl
      exact (σ.eq_iff hab (hkept hb)).mpr rfl
  · rcases hab.eq_or with rfl | ⟨⟨-, ha⟩, -, hb⟩
    · exact Iff.rfl
    · constructor
      · rintro rfl
        exact Bool.noConfusion (hname.symm.trans ha)
      · rintro rfl
        exact Bool.noConfusion (hname.symm.trans hb)

end Spelling

/-! ### What another spelling does not change -/

namespace Program

variable {σ : Spelling}

/-- A path is a lone name if it is local and its only segment is without arguments. -/
theorem Path.ident?_cons (global : Bool) (word : Word) (style : ArgumentStyle) (args : List Part)
    (rest : List Segment) :
    (Path.mk global (.mk word style args :: rest)).ident? =
      if global = false ∧ style = .none ∧ rest.isEmpty = true then some word.text else none := by
  cases global with
  | true => rfl
  | false =>
      cases style with
      | none => cases rest <;> rfl
      | angle => rfl
      | paren => rfl

/-- A path that is a lone name is one **in another spelling** too. -/
theorem Path.Respelled.ident?_isSome {p q : Path} (h : p.Respelled σ q) :
    p.ident?.isSome = q.ident?.isSome := by
  have hempty : ∀ {ss ts : List Segment}, SegmentsRespelled σ ss ts → ss.isEmpty = ts.isEmpty := by
    intro ss ts h
    cases h <;> rfl
  cases h with
  | mk h =>
      cases h with
      | nil => rfl
      | cons hword hargs hrest =>
          rw [ident?_cons, ident?_cons, hempty hrest]
          split <;> rfl
  | root hroots hv hw hargs hrest =>
      rw [ident?_cons, ident?_cons, hempty hrest]
      split <;> rfl

/-- Segments of words alone are spelled **word by word**. -/
theorem SegmentsRespelled.of_words {words others : List Word}
    (h : Forall₂ (fun v w : Word => σ.word v.text w.text) words others) :
    SegmentsRespelled σ (words.map fun word => .mk word .none [])
      (others.map fun word => .mk word .none []) := by
  induction h with
  | nil => exact .nil
  | cons hword _ ih => exact .cons hword .nil ih

/-- The last names of segments are the same in another spelling. -/
theorem SegmentsRespelled.getLast?_name : ∀ {ss ts : List Segment}, SegmentsRespelled σ ss ts →
    Option.Rel σ.word (ss.getLast?.map Segment.name) (ts.getLast?.map Segment.name)
  | _, _, .nil => .none
  | _, _, .cons hword _ .nil => .some hword
  | _, _, .cons _ _ (.cons hword hargs hrest) => by
    rw [List.getLast?_cons_cons, List.getLast?_cons_cons]
    exact (SegmentsRespelled.cons hword hargs hrest).getLast?_name

/-- A pattern binds **the name in the other spelling**, if it binds one. -/
theorem Pat.Respelled.rel_binder? {x y : Pat} (h : x.Respelled σ y) :
    Option.Rel σ.word (Mentions.binder? x) (Mentions.binder? y) := by
  cases h with
  | bind hname _ => exact .some hname
  | _ => exact .none

/-- The attributes of an expression are **hidden in both spellings or in neither**. -/
theorem Expr.Respelled.hidesAttributes_eq {e f : Expr} (h : e.Respelled σ f) :
    Mentions.hidesAttributes e = Mentions.hidesAttributes f := by
  cases h <;> rfl

end Program

end CapabilityGate
