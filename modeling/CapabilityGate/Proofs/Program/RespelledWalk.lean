import CapabilityGate.Program.TokenRun
import CapabilityGate.Proofs.Program.AlikeWalks
import CapabilityGate.Proofs.Program.Respelling

/-!
# What programs in another spelling declare and mention

Both walks over a program meet the same in another spelling of it, in the same order: each
declaration and each mention in that spelling, in a module whose name is spelled so too.

## Main definitions

* `Declaration.Respelled`, `MentionRespelled`: what the walks meet, in another spelling.

## Main results

* `Part.Respelled.components`: parts in another spelling are made of parts in it.
* `SourceFile.Respelled.declared`: programs in two spellings declare the same in the same order.
* `SourceFile.Respelled.mentioned`: and mention the same in the same order.
* `TokensRespelled.tokenPaths`: tokens spell the same paths in another spelling.
-/

namespace CapabilityGate.Program

open List (Forall₂ rel_append)

variable {σ : Spelling}

/-! ### What parts in another spelling are made of -/

/-- Parts in another spelling are so **one by one**. -/
theorem PartsRespelled.forall₂ : ∀ {as bs : List Part}, PartsRespelled σ as bs →
    Forall₂ (Part.Respelled σ) as bs
  | _, _, .nil => .nil
  | _, _, .cons h hrest => .cons h hrest.forall₂

/-- Expressions in another spelling are so one by one, as parts. -/
theorem ExprsRespelled.forall₂ : ∀ {es fs : List Expr}, ExprsRespelled σ es fs →
    Forall₂ (Part.Respelled σ) (es.map .expr) (fs.map .expr)
  | _, _, .nil => .nil
  | _, _, .cons h hrest => .cons (.expr h) hrest.forall₂

/-- The arguments of segments in another spelling are in it one by one. -/
theorem SegmentsRespelled.forall₂ : ∀ {ss ts : List Segment}, SegmentsRespelled σ ss ts →
    Forall₂ (Part.Respelled σ) (ss.flatMap Segment.args) (ts.flatMap Segment.args)
  | _, _, .nil => .nil
  | _, _, .cons _ h hrest => rel_append h.forall₂ hrest.forall₂

/-- Parts in another spelling **are made of parts in it** in the same roles. -/
theorem Part.Respelled.components {x y : Part} (h : x.Respelled σ y) :
    Forall₂ (InRole (Part.Respelled σ)) x.components y.components := by
  have hone : ∀ {role : Role} {a b : Part}, a.Respelled σ b →
      Forall₂ (InRole (Part.Respelled σ)) [(role, a)] [(role, b)] :=
    fun hab => .cons ⟨rfl, hab⟩ .nil
  have heach : ∀ {as bs : List Part}, Forall₂ (Part.Respelled σ) as bs → ∀ role : Role,
      Forall₂ (InRole (Part.Respelled σ)) (role.each as) (role.each bs) :=
    comparesLists_forall₂.each
  cases h with
  | type h =>
      cases h with
      | path _ h => exact hone (.path h)
      | wrapped h => exact hone (.type h)
      | other _ h => exact heach h.forall₂ _
  | expr h =>
      cases h with
      | path h _ => exact hone (.path h)
      | qualified howner h _ => exact .cons ⟨rfl, .type howner⟩ (hone (.path h))
      | call h hargs => exact .cons ⟨rfl, .expr h⟩ (heach hargs.forall₂ _)
      | method h _ hturbofish hargs =>
          exact .cons ⟨rfl, .expr h⟩
            (rel_append (heach hturbofish.forall₂ _) (heach hargs.forall₂ _))
      | paren h => exact hone (.expr h)
      | reference h => exact hone (.expr h)
      | tried h => exact hone (.expr h)
      | construct howner h hfields =>
          exact rel_append (heach howner.forall₂ _)
            (.cons ⟨rfl, .path h⟩ (heach hfields.forall₂ _))
      | invoke h => exact hone (.invoke h)
      | attributed hattributes h =>
          rw [Part.components, Part.components, h.hidesAttributes_eq]
          exact rel_append (heach hattributes.forall₂ _) (hone (.expr h))
      | compound h => exact heach h.forall₂ _
  | pattern h =>
      cases h with
      | bind _ h => exact heach h.forall₂ _
      | typed hattributes h htype =>
          exact rel_append (heach hattributes.forall₂ _)
            (.cons ⟨rfl, .pattern h⟩ (hone (.type htype)))
      | compound h => exact heach h.forall₂ _
  | item h =>
      cases h with
      | use h _ => exact heach h.forall₂ _
      | externCrate h _ _ => exact heach h.forall₂ _
      | typeAlias h _ htype => exact rel_append (heach h.forall₂ _) (hone (.type htype))
      | declaration _ h => exact heach h.forall₂ _
      | module _ h => exact heach h.forall₂ _
      | implementation h htype hmembers =>
          exact rel_append (heach h.forall₂ _) (.cons ⟨rfl, .type htype⟩ (heach hmembers.forall₂ _))
      | other h => exact heach h.forall₂ _
  | path h =>
      cases h with
      | mk h => exact heach h.forall₂ _
      | root _ _ _ h hrest => exact heach (rel_append h.forall₂ hrest.forall₂) _
  | invoke h =>
      cases h with
      | list h => exact heach h.forall₂ _
      | raw _ => exact .nil
  | binding hattributes h hvalues =>
      exact rel_append (heach hattributes.forall₂ _)
        (.cons ⟨rfl, .pattern h⟩ (heach hvalues.forall₂ _))
  | group h => exact heach h.forall₂ _

/-! ### Declarations -/

/-- What is declared is the same **in another spelling**. -/
inductive Declares.Respelled (σ : Spelling) : Declares → Declares → Prop
  | item {a b : String} (h : σ.word a b) : Declares.Respelled σ (.item a) (.item b)
  | module {a b : String} (h : σ.word a b) : Declares.Respelled σ (.module a) (.module b)
  | use {global : Bool} {t u : UseTree} (h : t.Respelled σ true u) :
      Declares.Respelled σ (.use global t) (.use global u)
  | crate {a b : String} {x y : Option String} (h : σ.word a b) (halias : Option.Rel σ.word x y) :
      Declares.Respelled σ (.crate a x) (.crate b y)
  | typeAlias {a b : String} {s t : Ty} (h : σ.word a b) (htype : s.Respelled σ t) :
      Declares.Respelled σ (.typeAlias a s) (.typeAlias b t)

/-- A declaration is another one in another spelling. -/
structure Declaration.Respelled (σ : Spelling) (d e : Declaration) : Prop where
  /-- The names of the modules around it are. -/
  module : Forall₂ σ.word d.module e.module
  /-- What is declared is. -/
  what : d.what.Respelled σ e.what

/-- Parts in another spelling **declare the same themselves** in it. -/
theorem Part.Respelled.declares {x y : Part} (h : x.Respelled σ y) {m m' : List String}
    (hm : Forall₂ σ.word m m') :
    Forall₂ (Declaration.Respelled σ) (x.declares m) (y.declares m') := by
  cases h with
  | item h =>
      cases h with
      | use _ htree => exact .cons ⟨hm, .use htree⟩ .nil
      | externCrate _ hname halias => exact .cons ⟨hm, .crate hname halias⟩ .nil
      | typeAlias _ hname htype => exact .cons ⟨hm, .typeAlias hname htype⟩ .nil
      | declaration hname _ => exact .cons ⟨hm, .item hname⟩ .nil
      | module hname _ => exact .cons ⟨hm, .module hname⟩ .nil
      | _ => exact .nil
  | type h => cases h <;> exact .nil
  | expr h => cases h <;> exact .nil
  | pattern h => cases h <;> exact .nil
  | _ => exact .nil

/-- The parts of parts in another spelling stand in modules whose names are in it. -/
theorem Part.Respelled.moduleWithin {x y : Part} (h : x.Respelled σ y) {m m' : List String}
    (hm : Forall₂ σ.word m m') : Forall₂ σ.word (x.moduleWithin m) (y.moduleWithin m') := by
  cases h with
  | item h =>
      cases h with
      | module hname _ => exact rel_append hm (.cons hname .nil)
      | _ => exact hm
  | type h => cases h <;> exact hm
  | expr h => cases h <;> exact hm
  | pattern h => cases h <;> exact hm
  | _ => exact hm

/-- The walk for declarations **keeps** the spelling. -/
theorem declarationWalk_keeps_respelled :
    declarationWalk.Keeps (fun _ => Forall₂) (Declaration.Respelled σ)
      (fun s t => Forall₂ σ.word s.1 t.1 ∧ s.2.Respelled σ t.2) := by
  rintro ⟨m, x⟩ ⟨m', y⟩ ⟨hm, h⟩
  exact ⟨_, _, rfl, Nat.le_refl _, rfl, h.declares hm,
    declarationWalk_next comparesLists_forall₂ (h.moduleWithin hm) h.components⟩

/-- Programs in two spellings **declare the same** in the same order. -/
theorem SourceFile.Respelled.declared {p q : SourceFile} (h : p.Respelled σ q) :
    Forall₂ (Declaration.Respelled σ) p.declarations q.declarations :=
  declarationWalk_keeps_respelled.declarations comparesLists_forall₂ .nil h.forall₂

/-! ### Mentions -/

/-- A place is another one in another spelling. -/
structure Place.Respelled (σ : Spelling) (a b : Place) : Prop where
  /-- The names of the modules around it are. -/
  module : Forall₂ σ.word a.module b.module
  /-- The type of the implementation around it is, and the module that this stands in. -/
  owner : Option.Rel (fun s t => Forall₂ σ.word s.1 t.1 ∧ s.2.Respelled σ t.2) a.owner b.owner

/-- A mention is another one in another spelling, at whatever place. -/
inductive Mention.Respelled (σ : Spelling) : Mention → Mention → Prop
  | path {called : Bool} {at_ other : Position} {p q : Path} (h : p.Respelled σ q)
      (hlone : ∀ a b, p.ident? = some a → q.ident? = some b → σ.word a b) :
      Mention.Respelled σ (.path called at_ p) (.path called other q)
  | qualified {called : Bool} {at_ other : Position} {s t : Ty} {position : Nat} {p q : Path}
      (howner : s.Respelled σ t) (h : p.Respelled σ q)
      (hmethod : position = 0 ∨ p.segments.length ≤ 1 →
        SegmentsRespelled σ p.segments q.segments) :
      Mention.Respelled σ (.qualified called at_ s position p) (.qualified called other t position q)
  | method {e f : Expr} {a b : String} {at_ other : Position} (h : e.Respelled σ f)
      (hname : σ.word a b) : Mention.Respelled σ (.method e a at_) (.method f b other)
  | tokens {ts us : List Token} (h : TokensRespelled σ ts us) :
      Mention.Respelled σ (.tokens ts) (.tokens us)
  | typed {a b : String} {s t : Ty} (hname : σ.word a b) (h : s.Respelled σ t) :
      Mention.Respelled σ (.typed a s) (.typed b t)
  | bound {a b : String} {e f : Expr} (hname : σ.word a b) (h : e.Respelled σ f) :
      Mention.Respelled σ (.bound a e) (.bound b f)

/-- Two mentions are **the same in another spelling** when they and their places are. -/
structure MentionRespelled (σ : Spelling) (a b : Place × Mention) : Prop where
  /-- The places are. -/
  place : a.1.Respelled σ b.1
  /-- What is mentioned there is. -/
  mention : a.2.Respelled σ b.2

/-- A place in a module below is the same in another spelling. -/
theorem Place.Respelled.below {a b : Place} (h : a.Respelled σ b) {x y : String}
    (hname : σ.word x y) :
    Place.Respelled σ ⟨a.module ++ [x], a.owner⟩ ⟨b.module ++ [y], b.owner⟩ :=
  ⟨rel_append h.module (.cons hname .nil), h.owner⟩

/-- A place in the implementation of a type is the same in another spelling. -/
theorem Place.Respelled.within {a b : Place} (h : a.Respelled σ b) {s t : Ty}
    (htype : s.Respelled σ t) :
    Place.Respelled σ ⟨a.module, some (a.module, s)⟩ ⟨b.module, some (b.module, t)⟩ :=
  ⟨h.module, .some ⟨h.module, htype⟩⟩

section Mentioned

open Mentions

/-- Patterns with types bind the same in another spelling. -/
theorem Pat.Respelled.ofTyped {a b : Place} (hplace : a.Respelled σ b) {x y : Pat}
    (h : x.Respelled σ y) {s t : Ty} (htype : s.Respelled σ t) :
    Forall₂ (MentionRespelled σ) (Mentions.ofTyped a x s) (Mentions.ofTyped b y t) := by
  have hbinder := h.rel_binder?
  rw [Mentions.ofTyped, Mentions.ofTyped]
  generalize Mentions.binder? x = m at hbinder
  generalize Mentions.binder? y = n at hbinder
  cases hbinder with
  | none => exact .nil
  | some hname => exact .cons ⟨hplace, .typed hname htype⟩ .nil

/-- A `let` statement binds the same in another spelling. -/
theorem Pat.Respelled.ofBinding {a b : Place} (hplace : a.Respelled σ b) {x y : Pat}
    (h : x.Respelled σ y) {es fs : List Expr} (hvalues : ExprsRespelled σ es fs) :
    Forall₂ (MentionRespelled σ) (Mentions.ofBinding a x es) (Mentions.ofBinding b y fs) := by
  have hbinder := h.rel_binder?
  unfold Mentions.ofBinding
  generalize Mentions.binder? x = m at hbinder
  generalize Mentions.binder? y = n at hbinder
  cases hbinder with
  | none => exact .nil
  | some hname =>
      cases hvalues with
      | nil => exact .nil
      | cons h hrest => exact .cons ⟨hplace, .bound hname h⟩ .nil

/-- Parts in another spelling **mention the same themselves** in it. -/
theorem Part.Respelled.mentions {x y : Part} (h : x.Respelled σ y) {a b : Place}
    (hplace : a.Respelled σ b) (called : Bool) :
    Forall₂ (MentionRespelled σ) (x.mentions a called) (y.mentions b called) := by
  cases h with
  | type h => cases h <;> exact .nil
  | expr h =>
      cases h with
      | path h hlone => exact .cons ⟨hplace, .path h hlone⟩ .nil
      | qualified howner h hmethod => exact .cons ⟨hplace, .qualified howner h hmethod⟩ .nil
      | method h hname _ _ => exact .cons ⟨hplace, .method h hname⟩ .nil
      | _ => exact .nil
  | pattern h =>
      cases h with
      | typed _ h htype => exact Pat.Respelled.ofTyped hplace h htype
      | _ => exact .nil
  | item h => cases h <;> exact .nil
  | invoke h =>
      cases h with
      | list _ => exact .nil
      | raw h => exact .cons ⟨hplace, .tokens h⟩ .nil
  | binding _ h hvalues => exact Pat.Respelled.ofBinding hplace h hvalues
  | _ => exact .nil

/-- The parts of parts in another spelling stand in places in it. -/
theorem Part.Respelled.placeWithin {x y : Part} (h : x.Respelled σ y) {a b : Place}
    (hplace : a.Respelled σ b) : (x.placeWithin a).Respelled σ (y.placeWithin b) := by
  cases h with
  | item h =>
      cases h with
      | module hname _ => exact hplace.below hname
      | implementation _ htype _ => exact hplace.within htype
      | _ => exact hplace
  | type h => cases h <;> exact hplace
  | expr h => cases h <;> exact hplace
  | pattern h => cases h <;> exact hplace
  | _ => exact hplace

/-- The walk for mentions **keeps** the spelling. -/
theorem mentionWalk_keeps_respelled :
    mentionWalk.Keeps (fun _ => Forall₂) (MentionRespelled σ)
      (StopsAlike (Place.Respelled σ) fun _ => Part.Respelled σ) := by
  rintro ⟨a, called, x⟩ ⟨b, _, y⟩ ⟨hplace, rfl, h⟩
  exact ⟨_, _, rfl, Nat.le_refl _, rfl, h.mentions hplace called,
    mentionWalk_next comparesLists_forall₂ (h.placeWithin hplace) h.components⟩

end Mentioned

/-- Programs in two spellings **mention the same** in the same order. -/
theorem SourceFile.Respelled.mentioned {p q : SourceFile} (h : p.Respelled σ q) :
    Forall₂ (MentionRespelled σ) p.mentions q.mentions :=
  mentionWalk_keeps_respelled.mentions comparesLists_forall₂ ⟨.nil, .none⟩ h.forall₂

/-! ### Paths among tokens -/

/-- Two scans are the same **in another spelling** when they have met the same names in it. -/
structure Run.Respelled (σ : Spelling) (r s : Run) : Prop where
  /-- The complete runs have the same names. -/
  done : Forall₂ (fun a b => Forall₂ σ.word a.1 b.1) r.done s.done
  /-- The run so far has the same names. -/
  names : Forall₂ σ.word r.names s.names
  /-- It has a first name in both or in neither. -/
  start : r.start.isSome = s.start.isSome
  /-- The same stands behind the last name. -/
  separator : r.separator = s.separator
  /-- The sign of a parameter was read in both or in neither. -/
  parameter : r.parameter = s.parameter
  /-- The run starts at a parameter in both or in neither. -/
  hidden : r.hidden = s.hidden

/-- Lists that are related one by one are both empty or both not. -/
theorem isEmpty_eq_of_forall₂ {α β : Type} {R : α → β → Prop} {as : List α} {bs : List β}
    (h : Forall₂ R as bs) : as.isEmpty = bs.isEmpty := by
  cases h <;> rfl

namespace Run

variable {r s : Run}

/-- Without a run so far, scans with the same complete runs are the same. -/
theorem Respelled.of_done {ds es : List (List String × Position)}
    (h : Forall₂ (fun a b => Forall₂ σ.word a.1 b.1) ds es) :
    Run.Respelled σ { empty with done := ds } { empty with done := es } :=
  ⟨h, .nil, rfl, rfl, rfl, rfl⟩

/-- Scans in two spellings stay so **when a run ends**. -/
theorem Respelled.flush (h : r.Respelled σ s) : r.flush.Respelled σ s.flush := by
  have hstart := h.start
  have hempty := isEmpty_eq_of_forall₂ h.names
  rw [Run.flush, Run.flush, h.hidden, hempty]
  cases hr : r.start with
  | none =>
      cases hs : s.start with
      | none => exact .of_done h.done
      | some q => simp [hr, hs] at hstart
  | some p =>
      cases hs : s.start with
      | none => simp [hr, hs] at hstart
      | some q =>
          by_cases hhidden : (s.hidden || s.names.isEmpty) = true
          · simp only [hhidden, if_true]
            exact .of_done h.done
          · simp only [hhidden, Bool.false_eq_true, if_false]
            exact .of_done (.cons (List.rel_reverse h.names) h.done)

/-- They stay so when a run begins **with names in the two spellings**. -/
theorem Respelled.begin (h : r.Respelled σ s) {a b : String} (hname : σ.word a b) (p q : Position)
    (hidden : Bool) : (r.begin a p hidden).Respelled σ (s.begin b q hidden) :=
  ⟨h.flush.done, .cons hname .nil, rfl, h.flush.separator, h.flush.parameter, rfl⟩

/-- They stay so behind names in the two spellings. -/
theorem Respelled.name (h : r.Respelled σ s) {a b : String} (hname : σ.word a b)
    (p q : Position) : (r.name a p).Respelled σ (s.name b q) := by
  have hcrate : (a != "crate") = (b != "crate") := by
    have hknown : σ.Name a b := Or.inl hname
    rw [bne, bne, hknown.beq_known (by decide)]
  rw [Run.name, Run.name, h.parameter, h.separator, hcrate]
  cases s.parameter with
  | true => exact h.begin hname p q _
  | false =>
      by_cases hfull : s.separator = .full
      · simp only [hfull, if_true, Bool.false_eq_true, if_false]
        have hstart := h.start
        refine ⟨h.done, .cons hname h.names, ?_, rfl, rfl, h.hidden⟩
        cases r.start <;> cases s.start <;> rfl
      · simp only [hfull, Bool.false_eq_true, if_false]
        exact h.begin hname p q _

/-- They stay so behind the same mark. -/
theorem Respelled.mark (h : r.Respelled σ s) (c : Char) (joint : Bool) :
    (r.mark c joint).Respelled σ (s.mark c joint) := by
  rw [Run.mark, Run.mark, h.separator]
  by_cases hcolon : (c == ':') = true
  · simp only [hcolon, if_true]
    cases s.separator with
    | nothing =>
        cases joint with
        | true => exact ⟨h.done, h.names, h.start, rfl, h.parameter, h.hidden⟩
        | false => exact h.flush
    | half => exact ⟨h.done, h.names, h.start, rfl, h.parameter, h.hidden⟩
    | full => exact h.flush
  · simp only [hcolon, Bool.false_eq_true, if_false]
    by_cases hsign : (c == '$') = true
    · simp only [hsign, if_true]
      exact ⟨h.flush.done, h.flush.names, h.flush.start, h.flush.separator, rfl, h.flush.hidden⟩
    · simp only [hsign, Bool.false_eq_true, if_false]
      exact h.flush

mutual

/-- They stay so **behind tokens in the two spellings**. -/
theorem Respelled.token {r s : Run} {t u : Token} (h : r.Respelled σ s) :
    t.Respelled σ u → (r.token t).Respelled σ (s.token u)
  | .name hname => by
    rw [Run.token, Run.token]
    exact h.name hname _ _
  | .mark => by
    rw [Run.token, Run.token]
    exact h.mark _ _
  | .literal => by
    rw [Run.token, Run.token]
    exact h.flush
  | .group hbody => by
    rw [Run.token, Run.token]
    exact (Respelled.tokens h.flush hbody).flush

/-- They stay so behind several of them. -/
theorem Respelled.tokens {r s : Run} {ts us : List Token} (h : r.Respelled σ s) :
    TokensRespelled σ ts us → (r.tokens ts).Respelled σ (s.tokens us)
  | .nil => by
    rw [Run.tokens, Run.tokens]
    exact h
  | .cons ht hrest => by
    rw [Run.tokens, Run.tokens]
    exact Respelled.tokens (Respelled.token h ht) hrest

end

end Run

/-- Tokens spell **the same paths** in another spelling. -/
theorem TokensRespelled.tokenPaths {ts us : List Token} (h : TokensRespelled σ ts us) :
    Forall₂ (fun a b => Forall₂ σ.word a.1 b.1) (tokenPaths ts) (tokenPaths us) :=
  List.rel_reverse (Run.Respelled.tokens (.of_done .nil) h).flush.done

end CapabilityGate.Program
