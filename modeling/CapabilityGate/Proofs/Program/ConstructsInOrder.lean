import CapabilityGate.Proofs.Program.MentionOrder

/-!
# Constructs in the order of the text

A construct is in order if its parts are, in the order in which they are written. Most constructs
mention what their parts do and nothing else, and are walked as these are. A pattern with a type
binds a name besides, an expression may be called, and the attributes in front of an expression are
mentioned before it, or give it the place where it starts.

## Main definitions

* `WalkedAlike`: parts that mention the same, with the same items among them.
* `OrderlyExpr`: an expression that is in order, called or not.
* `OrderlyAttributes`: attributes in order, with the place where they start.
* `Prefaces`: an expression that mentions what another one does behind mentions of its own.

## Main statements

* `WalkedAlike.orderly_iff`: parts that are walked alike are in order alike.
* `OrderlyExpr.method`: a method is met before its receiver, and in front of its arguments.
* `OrderlyAttributes.withAttributes`: an expression is in order with the attributes in front of it.
* `OrderlyAttributes.withStatementAttributes`: so it is with those of the statement it makes up.
-/

namespace CapabilityGate.Program

open Mentions

/-! ### Parts that are walked alike -/

/-- The items that are walked with a part are those that are walked **with what stands directly in
it**, unless it is an item or has attributes. -/
theorem walkedAmong_iff {place between at_ : Place} {part : Part} {parts : List Part} {item : Item}
    (hchildren : part.children place = placed between parts) (hitem : ∀ item, part ≠ .item item)
    (hplain : ∀ attributes e, part ≠ .expr (.attributed attributes e)) :
    WalkedAmong place [part] at_ (.item item) ↔ WalkedAmong between parts at_ (.item item) := by
  constructor
  · rintro ⟨_, hmem, hwalked⟩
    obtain rfl := List.mem_singleton.mp hmem
    obtain ⟨-, heq⟩ | ⟨c, hc, hinside⟩ | ⟨attributes, e, heq, -⟩ := hwalked.eq_or_inside
    · exact absurd heq.symm (hitem item)
    · rw [hchildren] at hc
      obtain ⟨child, hchild, rfl⟩ := List.mem_map.mp hc
      exact ⟨child, hchild, hinside⟩
    · exact absurd heq (hplain attributes e)
  · exact fun hwalked => hwalked.inside (hchildren ▸ List.Subset.refl _)

/-- Parts are **walked alike** when they mention the same and the same items are among them. -/
structure WalkedAlike (parts more : List Part) : Prop where
  /-- They mention the same. -/
  mentions : ∀ place, inParts place parts = inParts place more
  /-- The same items are walked among them. -/
  items : ∀ place at_ item,
    WalkedAmong place parts at_ (.item item) ↔ WalkedAmong place more at_ (.item item)

namespace WalkedAlike

variable {all : List Token} {lo hi : Position} {parts more behind : List Part}

/-- A part that mentions what stands directly in it is walked **as this is**, unless it is an item
or has attributes. -/
theorem of_part {part : Part} (hmentions : ∀ place, inPart place part = inParts place parts)
    (hchildren : ∀ place, part.children place = placed place parts)
    (hitem : ∀ item, part ≠ .item item)
    (hplain : ∀ attributes e, part ≠ .expr (.attributed attributes e)) :
    WalkedAlike [part] parts where
  mentions place := by rw [inParts, inParts, List.append_nil, hmentions]
  items place _ _ := walkedAmong_iff (hchildren place) hitem hplain

/-- Parts are walked as they are themselves. -/
theorem refl (parts : List Part) : WalkedAlike parts parts :=
  ⟨fun _ => rfl, fun _ _ _ => Iff.rfl⟩

/-- To be walked alike goes **both ways**. -/
theorem symm (h : WalkedAlike parts more) : WalkedAlike more parts :=
  ⟨fun place => (h.mentions place).symm, fun place at_ item => (h.items place at_ item).symm⟩

/-- It passes on **from parts to parts**. -/
theorem trans (h : WalkedAlike parts more) (hmore : WalkedAlike more behind) :
    WalkedAlike parts behind :=
  ⟨fun place => (h.mentions place).trans (hmore.mentions place),
    fun place at_ item => (h.items place at_ item).trans (hmore.items place at_ item)⟩

/-- Parts that are walked alike are so **behind the same parts**. -/
theorem append_left (h : WalkedAlike parts more) (front : List Part) :
    WalkedAlike (front ++ parts) (front ++ more) := by
  refine ⟨fun place => by rw [inParts_append, inParts_append, h.mentions], fun place at_ item => ?_⟩
  have hsplit : ∀ ps, WalkedAmong place (front ++ ps) at_ (.item item) ↔
      WalkedAmong place front at_ (.item item) ∨ WalkedAmong place ps at_ (.item item) := by
    intro ps
    simp only [WalkedAmong, List.mem_append, or_and_right, exists_or]
  rw [hsplit, hsplit, h.items]

/-- Parts that are walked alike are **in order alike**. -/
theorem orderly (h : WalkedAlike parts more) (hmore : OrderlyParts all lo hi more) :
    OrderlyParts all lo hi parts := by
  intro place
  rw [h.mentions]
  exact (hmore place).mono fun _ _ hst => hst.mono fun at_ item => (h.items place at_ item).mpr

/-- They are in order **exactly together**. -/
theorem orderly_iff (h : WalkedAlike parts more) :
    OrderlyParts all lo hi parts ↔ OrderlyParts all lo hi more :=
  ⟨h.symm.orderly, h.orderly⟩

end WalkedAlike

section Constructs

variable {all : List Token} {lo mid hi : Position} {parts more : List Part}

attribute [local simp] inPath inSegments inType inExpr inExprs inPattern inItem inInvocation
  inReading inPart inParts inParts_append

/-- A path is walked **as its arguments** are. -/
theorem walkedAlike_path (p : Path) : WalkedAlike [.path p] (p.segments.flatMap Segment.args) :=
  .of_part (fun place => by
    obtain ⟨global, segments⟩ := p
    simp [Path.segments, inSegments_eq_inParts]) (fun _ => rfl) nofun nofun

/-- A path mentions what its arguments do. -/
theorem orderlyParts_append_path {p : Path} :
    OrderlyParts all lo hi (parts ++ [.path p]) ↔
      OrderlyParts all lo hi (parts ++ p.segments.flatMap Segment.args) :=
  ((walkedAlike_path p).append_left parts).orderly_iff

/-- A path is in order exactly if **the arguments of its segments** are. -/
theorem orderlyParts_path {p : Path} :
    OrderlyParts all lo hi [.path p] ↔
      OrderlyParts all lo hi (p.segments.flatMap Segment.args) :=
  (walkedAlike_path p).orderly_iff

/-- A type that is a path is in order **as the path** is. -/
theorem orderlyParts_typePath {p : Path} :
    OrderlyParts all lo hi [.type (.path p)] ↔ OrderlyParts all lo hi [.path p] :=
  WalkedAlike.orderly_iff (.of_part (by simp) (fun _ => rfl) nofun nofun)

/-- A reference, a pointer or brackets around a type are in order **as the type in them** is. -/
theorem orderlyParts_wrapped {t : Ty} :
    OrderlyParts all lo hi [.type (.wrapped t)] ↔ OrderlyParts all lo hi [.type t] :=
  WalkedAlike.orderly_iff (.of_part (by simp) (fun _ => rfl) nofun nofun)

/-- Any other type is in order **as its parts** are. -/
theorem orderlyParts_other {text : String} :
    OrderlyParts all lo hi [.type (.other text parts)] ↔ OrderlyParts all lo hi parts :=
  WalkedAlike.orderly_iff (.of_part (by simp) (fun _ => rfl) nofun nofun)

/-- Parts in a group are in order **as they are outside of it**. -/
theorem orderlyParts_group :
    OrderlyParts all lo hi [.group parts] ↔ OrderlyParts all lo hi parts :=
  WalkedAlike.orderly_iff (.of_part (by simp) (fun _ => rfl) nofun nofun)

/-- A compound expression is walked **as its parts** are. -/
theorem walkedAlike_compound (form : Form) (parts : List Part) :
    WalkedAlike [.expr (.compound form parts)] parts :=
  .of_part (by simp) (fun _ => rfl) nofun nofun

/-- A compound expression is in order exactly if **its parts** are. -/
theorem orderlyParts_compound {form : Form} :
    OrderlyParts all lo hi [.expr (.compound form parts)] ↔ OrderlyParts all lo hi parts :=
  (walkedAlike_compound form parts).orderly_iff

/-- A pattern that binds a name is in order **as what it binds the name to** is: the name itself
makes no call site. -/
theorem orderlyParts_bind {name : Word} :
    OrderlyParts all lo hi [.pattern (.bind name parts)] ↔ OrderlyParts all lo hi parts :=
  WalkedAlike.orderly_iff (.of_part (by simp) (fun _ => rfl) nofun nofun)

/-- A compound pattern is in order exactly if **its parts** are. -/
theorem orderlyParts_compoundPattern :
    OrderlyParts all lo hi [.pattern (.compound parts)] ↔ OrderlyParts all lo hi parts :=
  WalkedAlike.orderly_iff (.of_part (by simp) (fun _ => rfl) nofun nofun)

/-- The name that a pattern binds makes no call site. -/
theorem OrderlyParts.typed {p : Pat} {t : Ty}
    (h : OrderlyParts all lo hi (parts ++ [.pattern p, .type t])) :
    OrderlyParts all lo hi [.pattern (.typed parts p t)] := by
  refine h.inside (fun _ => List.Subset.refl _) fun place => ⟨ofTyped place p t, ?_, by simp⟩
  intro m hm
  rw [ofTyped] at hm
  split at hm
  · obtain rfl := List.mem_singleton.mp hm
    rfl
  · exact absurd hm List.not_mem_nil

/-- The name that a `let` statement binds makes none either. -/
theorem OrderlyParts.binding {p : Pat} {values : List Expr}
    (h : OrderlyParts all lo hi (parts ++ .pattern p :: values.map .expr)) :
    OrderlyParts all lo hi [.binding parts p values] := by
  refine h.inside (fun _ => List.Subset.refl _) fun place => ⟨ofBinding place p values, ?_, ?_⟩
  · intro m hm
    unfold ofBinding at hm
    split at hm
    · obtain rfl := List.mem_singleton.mp hm
      rfl
    · exact absurd hm List.not_mem_nil
  · rw [inParts_append, inParts, inParts_exprs]
    simp

/-- Expressions between commas are in order as what a macro is used on. -/
theorem OrderlyParts.invokeList {name : List String} {braced : Bool} {tokens : List Token}
    {members : List Expr} (h : OrderlyParts all lo hi (members.map .expr)) :
    OrderlyParts all lo hi [.invoke (.mk name braced tokens (.list members))] := by
  refine h.inside (fun place => ?_) fun place => ⟨[], nofun, ?_⟩
  · rw [placed_exprs]
    exact List.Subset.refl _
  · rw [inParts_exprs]
    simp

/-- So are the tokens that a macro is used on, where they are **laid out**. -/
theorem OrderlyParts.invokeRaw {name : List String} {braced : Bool} {tokens : List Token}
    (h : Laid lo tokens hi) :
    OrderlyParts all lo hi [.invoke (.mk name braced tokens .raw)] := by
  intro place
  obtain ⟨hsorted, hwithin⟩ := tokenPaths_laid h
  simp only [inParts, inPart, inInvocation, inReading, List.append_nil]
  refine ⟨h.le, ?_, ?_, List.pairwise_singleton _ _⟩
  · intro m hm
    obtain rfl := List.mem_singleton.mp hm
    exact hwithin
  · intro m hm
    obtain rfl := List.mem_singleton.mp hm
    exact hsorted

end Constructs

/-! ### Expressions -/

/-- The mentions in an expression are between two places and follow one another, whether it is
called or not, but for what overtakes others in an item that is walked with it. -/
def OrderlyExpr (all : List Token) (lo hi : Position) (e : Expr) : Prop :=
  ∀ place called, Orderly (OvertakesIn all place [.expr e]) lo hi (inExpr place called e)

namespace OrderlyExpr

variable {all : List Token} {lo mid hi p : Position} {parts fields : List Part} {e : Expr}

attribute [local simp] inPath inSegments inType inExpr inExprs inPattern inItem inInvocation
  inReading inPart inParts inParts_append

/-- The first of two places with an expression between them is not behind the second one. -/
theorem le (h : OrderlyExpr all lo hi e) : lo ≤ hi :=
  (h ⟨[], none⟩ false).le

/-- An expression in order is so **between places further apart**. -/
theorem widen {lo' hi' : Position} (h : OrderlyExpr all lo hi e) (hlo : lo' ≤ lo)
    (hhi : hi ≤ hi') : OrderlyExpr all lo' hi' e :=
  fun place called => (h place called).widen hlo hhi

/-- An expression that is in order is so **as a part** of another construct. -/
theorem part (h : OrderlyExpr all lo hi e) : OrderlyParts all lo hi [.expr e] := by
  intro place
  rw [inParts, inParts, List.append_nil, inPart]
  exact h place false

/-- An expression that mentions what stands directly in it, **called or not**, is in order if this
is. -/
theorem of_parts (h : OrderlyParts all lo hi parts)
    (hmentions : ∀ place called, inExpr place called e = inParts place parts)
    (hchildren : ∀ place, (Part.expr e).children place = placed place parts) :
    OrderlyExpr all lo hi e := by
  intro place called
  rw [hmentions]
  exact (h place).mono fun _ _ hst => hst.inside (hchildren place ▸ List.Subset.refl _)

/-- A compound expression is in order, **called or not**, if its parts are. -/
theorem compound {form : Form} (h : OrderlyParts all lo hi parts) :
    OrderlyExpr all lo hi (.compound form parts) :=
  .of_parts h (by simp) fun _ => rfl

/-- So is an expression in parentheses. -/
theorem paren (h : OrderlyParts all lo hi [.expr e]) : OrderlyExpr all lo hi (.paren e) :=
  .of_parts h (by simp) fun _ => rfl

/-- So is a reference to an expression in order. -/
theorem reference (h : OrderlyParts all lo hi [.expr e]) :
    OrderlyExpr all lo hi (.reference e) :=
  .of_parts h (by simp) fun _ => rfl

/-- So is an expression in front of a question mark. -/
theorem tried (h : OrderlyParts all lo hi [.expr e]) : OrderlyExpr all lo hi (.tried e) :=
  .of_parts h (by simp) fun _ => rfl

/-- A struct expression is in order if its attributes, **its path and its fields** are. -/
theorem construct {name : Path} (h : OrderlyParts all lo hi (parts ++ .path name :: fields)) :
    OrderlyExpr all lo hi (.construct parts name fields) :=
  .of_parts h (by simp) fun _ => rfl

/-- The use of a macro is in order as an expression **if it is as a part**. -/
theorem invoke {use : Invocation} (h : OrderlyParts all lo hi [.invoke use]) :
    OrderlyExpr all lo hi (.invoke use) :=
  .of_parts h (by simp) fun _ => rfl

/-- A path is mentioned **where it stands**. -/
theorem path {name : Path} (hlo : lo ≤ p) (hhi : p ≤ hi) :
    OrderlyExpr all lo hi (.path p name) := by
  intro place called
  rw [inExpr]
  exact .single rfl hlo hhi

/-- So is a path **behind a qualified type**: the type is mentioned with it, at the place of the
path. -/
theorem qualified {owner : Ty} {n : Nat} {name : Path} (hlo : lo ≤ p) (hhi : p ≤ hi) :
    OrderlyExpr all lo hi (.qualified p owner n name) := by
  intro place called
  rw [inExpr]
  exact .single rfl hlo hhi

/-- The arguments of a call stand **behind what is called**. -/
theorem call {args : List Expr} (h : OrderlyExpr all lo mid e)
    (hargs : OrderlyParts all mid hi (args.map .expr)) : OrderlyExpr all lo hi (.call e args) := by
  intro place called
  rw [inExpr, ← inParts_exprs]
  refine ((h place true).mono fun _ _ hst => hst.inside ?_).append
    ((hargs place).mono fun _ _ hst => hst.inside ?_)
  · exact List.cons_subset_cons _ (List.nil_subset _)
  · rw [placed_exprs]
    exact List.subset_cons_self _ _

/-- A method is met before the value that it is called on, and **in front of its arguments**. -/
theorem method {name : Word} {turbofish : List Part} {args : List Expr}
    (h : OrderlyExpr all lo mid e) (hmid : mid ≤ p)
    (hargs : OrderlyParts all p hi (args.map .expr)) :
    OrderlyExpr all lo hi (.method e name p turbofish args) := by
  intro place called
  have hargs : Orderly (OvertakesIn all place [.expr (.method e name p turbofish args)]) p hi
      (inParts place (args.map .expr)) := by
    refine (hargs place).mono fun _ _ hst => hst.inside ?_
    rw [placed_exprs]
    exact List.subset_cons_self _ _
  have hreceiver : Orderly (OvertakesIn all place [.expr (.method e name p turbofish args)]) lo mid
      (inExpr place false e) :=
    (h place false).mono fun _ _ hst => hst.inside (List.cons_subset_cons _ (List.nil_subset _))
  have hall := (hreceiver.widen (le_refl _) hmid).append hargs
  rw [inExpr, ← inParts_exprs, ← List.singleton_append]
  refine (Orderly.single (p := p) rfl (h.le.trans hmid) hargs.le).join hall ?_
  intro s hs t ht q hq r hr
  obtain rfl := List.mem_singleton.mp hs
  obtain rfl : q = p := List.mem_singleton.mp hq
  rcases List.mem_append.mp ht with hreceiver | harg
  · exact Or.inr (Or.inr ⟨e, name.text, q, rfl, hreceiver⟩)
  · exact Or.inl (hargs.within t harg r hr).1

end OrderlyExpr

/-! ### Attributes -/

/-- Attributes between two places, with mentions that follow one another. -/
structure OrderlyAttributes (all : List Token) (lo hi : Position) (a : Attributes) : Prop where
  /-- So are the expressions in them. -/
  parts : OrderlyParts all lo hi a.parts
  /-- They start between the places. -/
  start : ∀ p ∈ a.start, lo ≤ p ∧ p ≤ hi
  /-- If there are none, nothing is in them. -/
  none : a.start = none → a.parts = []

namespace OrderlyAttributes

variable {all : List Token} {lo mid hi p : Position} {a b : Attributes} {e : Expr}

/-- No attributes are in order between **two places in order**. -/
theorem empty (h : lo ≤ hi) : OrderlyAttributes all lo hi .empty :=
  ⟨.nil h, fun _ hp => (nomatch hp), fun _ => rfl⟩

/-- Attributes **behind attributes** are in order with them, and start where the first of them do.
-/
theorem append (ha : OrderlyAttributes all lo mid a) (hb : OrderlyAttributes all mid hi b) :
    OrderlyAttributes all lo hi (a ++ b) := by
  refine ⟨ha.parts.append hb.parts, fun p hp => ?_, fun hnone => ?_⟩
  · rcases Option.or_eq_some_iff.mp hp with hp | ⟨-, hp⟩
    · exact ⟨(ha.start p hp).1, (ha.start p hp).2.trans hb.parts.le⟩
    · exact ⟨ha.parts.le.trans (hb.start p hp).1, (hb.start p hp).2⟩
  · obtain ⟨hanone, hbnone⟩ := Option.or_eq_none_iff.mp hnone
    change a.parts ++ b.parts = []
    rw [ha.none hanone, hb.none hbnone]
    rfl

/-- Where an expression starts does not tell **whether its attributes are hidden**. -/
theorem hidesAttributes_startingAt (p : Position) (e : Expr) :
    hidesAttributes (e.startingAt p) = hidesAttributes e := by
  cases e <;> rfl

/-- An expression mentions what another one does, or some of it, **behind mentions of its own**, and
what is walked with the other one is walked with it. -/
structure Prefaces (all : List Token) (lo mid : Position) (e inner : Expr) : Prop where
  /-- It mentions something, and then what the other one mentions. -/
  mentions : ∀ place called, ∃ front back, inExpr place called e = front ++ back ∧
    Orderly (OvertakesIn all place [.expr e]) lo mid front ∧
      back.Sublist (inExpr place called inner)
  /-- The items that are walked with the other one are walked with it. -/
  items : ∀ place at_ item, WalkedAmong place [.expr inner] at_ (.item item) →
    WalkedAmong place [.expr e] at_ (.item item)

/-- What an expression mentions before another one leaves it **in order if the other one is**. -/
theorem Prefaces.orderly {inner : Expr} (he : Prefaces all lo mid e inner)
    (h : OrderlyExpr all mid hi inner) : OrderlyExpr all lo hi e := by
  intro place called
  obtain ⟨front, back, heq, hfront, hback⟩ := he.mentions place called
  rw [heq]
  exact hfront.append (((h place called).mono fun _ _ hst => hst.mono (he.items place)).sublist
    hback)

/-- Where an expression starts makes no difference to the items that are walked with it. -/
theorem walkedAmong_startingAt {place at_ : Place} {item : Item} (p : Position) (e : Expr) :
    WalkedAmong place [.expr (e.startingAt p)] at_ (.item item) ↔
      WalkedAmong place [.expr e] at_ (.item item) := by
  cases e with
  | path q name =>
      have hnone : ∀ r, WalkedAmong place [.expr (.path r name)] at_ (.item item) ↔
          WalkedAmong place [] at_ (.item item) := fun _ => walkedAmong_iff rfl nofun nofun
      exact (hnone p).trans (hnone q).symm
  | qualified q owner n name =>
      have hnone : ∀ r, WalkedAmong place [.expr (.qualified r owner n name)] at_ (.item item) ↔
          WalkedAmong place [] at_ (.item item) := fun _ => walkedAmong_iff rfl nofun nofun
      exact (hnone p).trans (hnone q).symm
  | _ => exact Iff.rfl

/-- An expression that starts with the attributes in front of it is mentioned **there**, or where it
stands. -/
theorem prefaces_startingAt (hlo : lo ≤ p) (hhi : p ≤ mid) (e : Expr) :
    Prefaces all lo mid (e.startingAt p) e := by
  refine ⟨fun place called => ?_, fun place at_ item => (walkedAmong_startingAt p e).mpr⟩
  cases e with
  | path at_ name => exact ⟨[_], [], rfl, .single rfl hlo hhi, List.nil_sublist _⟩
  | qualified at_ owner n name => exact ⟨[_], [], rfl, .single rfl hlo hhi, List.nil_sublist _⟩
  | _ => exact ⟨[], _, rfl, .nil (hlo.trans hhi), List.Sublist.refl _⟩

/-- An expression behind parts that are its attributes mentions them **first**, or hides them. -/
theorem prefaces_attributed {parts : List Part} (hparts : OrderlyParts all lo mid parts)
    (hlo : lo ≤ p) (hhi : p ≤ mid) (more : List Part) (e : Expr) :
    Prefaces all lo mid (.attributed (parts ++ more) (e.startingAt p)) (.attributed more e) := by
  have hinner : ∀ place at_ item, WalkedAmong place [.expr e] at_ (.item item) →
      WalkedAmong place [.expr (.attributed (parts ++ more) (e.startingAt p))] at_ (.item item) :=
    fun place at_ item h => ((walkedAmong_startingAt p e).mpr h).inside (List.Subset.refl _)
  refine ⟨fun place called => ?_, ?_⟩
  · rw [inExpr, inExpr, hidesAttributes_startingAt]
    split
    · obtain ⟨front, back, heq, hfront, hback⟩ :=
        (prefaces_startingAt hlo hhi e).mentions place called
      exact ⟨front, back, heq, hfront.mono fun _ _ hst => hst.inside (List.Subset.refl _), hback⟩
    next hshown =>
      have hsame : e.startingAt p = e := by
        cases e <;> first | rfl | exact absurd rfl hshown
      rw [hsame, inParts_append, List.append_assoc]
      refine ⟨_, _, rfl, (hparts place).mono fun _ _ hst => hst.mono ?_, List.Sublist.refl _⟩
      rintro at_ item ⟨a, ha, hwalked⟩
      exact ⟨_, List.mem_singleton_self _,
        hwalked.attribute (Bool.eq_false_iff.mpr hshown) (List.mem_append_left _ ha)⟩
  · rintro place at_ item ⟨_, hmem, hwalked⟩
    obtain rfl := List.mem_singleton.mp hmem
    obtain ⟨-, heq⟩ | ⟨c, hc, hinside⟩ | ⟨attributes, inner, heq, hshown, a, ha, hattribute⟩ :=
      hwalked.eq_or_inside
    · exact nomatch heq
    · obtain rfl := List.mem_singleton.mp hc
      exact hinner place at_ item ⟨_, List.mem_singleton_self _, hinside⟩
    · cases heq
      exact ⟨_, List.mem_singleton_self _, hattribute.attribute
        ((hidesAttributes_startingAt p e).trans hshown) (List.mem_append_right _ ha)⟩

/-- What an expression with attributes mentions is **in the attributes or in front of the
expression, and then in it**. -/
theorem prefaces_withAttributes (ha : OrderlyAttributes all lo mid a) (e : Expr) :
    Prefaces all lo mid (e.withAttributes a) e := by
  rw [Expr.withAttributes]
  cases hstart : a.start with
  | none =>
      exact ⟨fun place called => ⟨[], _, rfl, .nil ha.parts.le, List.Sublist.refl _⟩,
        fun _ _ _ => id⟩
  | some p =>
      obtain ⟨hlo, hhi⟩ := ha.start p hstart
      have hother : Prefaces all lo mid (if a.parts.isEmpty = true then e.startingAt p
          else .attributed a.parts (e.startingAt p)) e := by
        split
        · exact prefaces_startingAt hlo hhi e
        · have hempty := prefaces_attributed ha.parts hlo hhi [] e
          rw [List.append_nil] at hempty
          refine ⟨fun place called => ?_, fun place at_ item h =>
            hempty.items place at_ item (h.inside (List.Subset.refl _))⟩
          obtain ⟨front, back, heq, hfront, hback⟩ := hempty.mentions place called
          refine ⟨front, back, heq, hfront, ?_⟩
          rw [inExpr] at hback
          simpa [inParts] using hback
      cases e with
      | attributed parts inner => exact prefaces_attributed ha.parts hlo hhi parts inner
      | _ => exact hother

/-- The same of the attributes of a statement, which belong to its **first operand**. -/
theorem prefaces_withStatementAttributes (ha : OrderlyAttributes all lo mid a) (e : Expr) :
    Prefaces all lo mid (e.withStatementAttributes a) e := by
  induction e using Expr.withStatementAttributes.induct with
  | case1 form left rest hform ih =>
      rw [Expr.withStatementAttributes, if_pos hform]
      refine ⟨fun place called => ?_, fun place at_ item h => ?_⟩
      · obtain ⟨front, back, heq, hfront, hback⟩ := ih.mentions place false
        refine ⟨front, back ++ inParts place rest, ?_, hfront.mono fun _ _ hst => hst.inside ?_, ?_⟩
        · rw [inExpr, inParts, inPart, heq, List.append_assoc]
        · exact List.cons_subset_cons _ (List.nil_subset _)
        · rw [inExpr, inParts, inPart]
          exact hback.append_right _
      · obtain ⟨part, hpart, hwalked⟩ := ((walkedAlike_compound form _).items place at_ item).mp h
        refine ((walkedAlike_compound form _).items place at_ item).mpr ?_
        rcases List.mem_cons.mp hpart with rfl | hpart
        · exact (ih.items place at_ item ⟨_, List.mem_singleton_self _, hwalked⟩).mono
            (List.cons_subset_cons _ (List.nil_subset _))
        · exact ⟨part, List.mem_cons_of_mem _ hpart, hwalked⟩
  | case2 form left rest hform =>
      rw [Expr.withStatementAttributes, if_neg hform]
      exact ha.prefaces_withAttributes _
  | case3 e hother =>
      rw [Expr.withStatementAttributes]
      · exact ha.prefaces_withAttributes e
      · exact hother

/-- **An expression is in order with the attributes in front of it.** -/
theorem withAttributes (ha : OrderlyAttributes all lo mid a) (h : OrderlyExpr all mid hi e) :
    OrderlyExpr all lo hi (e.withAttributes a) :=
  (ha.prefaces_withAttributes e).orderly h

/-- So it is with those of the statement that it makes up. -/
theorem withStatementAttributes (ha : OrderlyAttributes all lo mid a)
    (h : OrderlyExpr all mid hi e) : OrderlyExpr all lo hi (e.withStatementAttributes a) :=
  (ha.prefaces_withStatementAttributes e).orderly h

end OrderlyAttributes

end CapabilityGate.Program
