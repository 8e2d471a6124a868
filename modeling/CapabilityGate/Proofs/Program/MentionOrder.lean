import CapabilityGate.Program.Parse
import CapabilityGate.Proofs.Program.TokenPlaces
import CapabilityGate.Proofs.Program.Walk

/-!
# Mentions in the order of the text

A walk over a tree keeps the order of the text as long as the parts of every construct are kept in
the order in which they are written. The conditions of an item and the attributes of a body are not:
they are walked before parts of the item that stand in front of them. A method is met before the
value that it is called on. Here it is said of a list of mentions that it keeps to the text but for
these cases, and of the parts of a construct that their mentions do.

## Main definitions

* `Mention.places`: where the call sites of a mention stand.
* `LateClause`: a stretch of a text that is walked too early.
* `Overtakes`, `OvertakesIn`: a mention is walked before one that stands in front of it in an item.
* `Follows`: a mention stands behind another one, or one of the exceptions holds.
* `Orderly`: mentions between two places that follow one another.
* `OrderlyParts`: parts with such mentions.
* `OrderlyHeader`: parts that are still to be put together to one item.
* `LateParts`: parts that stand in late clauses.

## Main statements

* `Orderly.append`, `Orderly.append_early`: mentions behind others, and mentions that come early.
* `OrderlyHeader.item`: an item is in order when its parts are as its header.
* `LateParts.append`: late clauses are in order in front of what they stand behind in one item.
-/

namespace CapabilityGate.Program

open Mentions

/-- Where the call sites that a mention makes stand. -/
def Mention.places : Mention → List Position
  | .path _ p _ | .qualified _ p _ _ _ | .method _ _ p => [p]
  | .tokens ts => (tokenPaths ts).map Prod.snd
  | .typed _ _ | .bound _ _ => []

/-- A stretch of a text that may be **walked before what stands in front of it** in its item: the
parts that are read from it, and the places that it stands between. -/
inductive LateClause (all : List Token) : List Part → Position → Position → Prop
  /-- The conditions of an item, from `where` up to the next token. -/
  | conditions {depth : Nat} {i j : Input} {t u : Token} {rest behind : List Token}
      {clause : List Part} (hall : Among all i.rest) (hfirst : i.rest = t :: rest)
      (hread : (Grammar.ofDepth depth).whereClause i = .ok ((true, clause), j))
      (hnext : j.rest = u :: behind) : LateClause all clause t.position u.position
  /-- An attribute of the body that it stands in, from its hash on. -/
  | attribute {depth : Nat} {i j : Input} {a : Attributes} {b c : Bool}
      {p q opens closes : Position} {body rest : List Token} (hall : Among all i.rest)
      (hfirst : i.rest =
        .mark '#' b p :: .mark '!' c q :: .group .bracket body opens closes :: rest)
      (hread : (Grammar.ofDepth depth).attribute_ true i = .ok (a, j)) :
      LateClause all a.parts p closes

/-- Of two mentions in the parts of an item the first one **overtakes** the second: it stands in a
late clause of the item, and the second one stands in front of this, in parts that are walked behind
the clause. -/
inductive Overtakes (all : List Token) (place : Place) (parts : List Part)
    (s t : Place × Mention) : Prop
  /-- The parts of the clause, and the parts that are walked behind them. -/
  | clause {clause others : List Part} {w c : Position} (hparts : clause ++ others <:+: parts)
      (hclause : LateClause all clause w c) (hfirst : s ∈ inParts place clause)
      (hwithin : ∀ p ∈ s.2.places, w ≤ p ∧ p ≤ c) (hsecond : t ∈ inParts place others)
      (hfront : ∀ q ∈ t.2.places, q ≤ w) : Overtakes all place parts s t

/-- A mention overtakes another one **in an item** that is walked among some parts. -/
def OvertakesIn (all : List Token) (place : Place) (parts : List Part) (s t : Place × Mention) :
    Prop :=
  ∃ at_ item, WalkedAmong place parts at_ (.item item) ∧
    Overtakes all ((Part.item item).placeWithin at_) item.parts s t

/-- The second mention is one in the **receiver** of the method that the first one is. -/
def OnReceiver (s t : Place × Mention) : Prop :=
  ∃ receiver name at_, s.2 = .method receiver name at_ ∧ t ∈ inExpr s.1 false receiver

/-- Of two mentions the second **follows** the first: it does not stand in front of it, unless the
first one may come `early`, or is the method that is called on what the second one stands in. -/
def Follows (early : Place × Mention → Place × Mention → Prop) (s t : Place × Mention) : Prop :=
  ∀ p ∈ s.2.places, ∀ q ∈ t.2.places, p ≤ q ∨ early s t ∨ OnReceiver s t

/-- Mentions between two places that **follow one another**. -/
structure Orderly (early : Place × Mention → Place × Mention → Prop) (lo hi : Position)
    (ms : List (Place × Mention)) : Prop where
  /-- The first place is not behind the second one. -/
  le : lo ≤ hi
  /-- The mentions stand between them. -/
  within : ∀ m ∈ ms, ∀ p ∈ m.2.places, lo ≤ p ∧ p ≤ hi
  /-- The places of one mention are in order. -/
  sorted : ∀ m ∈ ms, m.2.places.Pairwise (· ≤ ·)
  /-- Every mention follows those before it. -/
  ordered : ms.Pairwise (Follows early)

/-! ### Clauses that are walked early -/

section Overtaking

variable {all : List Token} {place between : Place} {parts more : List Part}
  {s t : Place × Mention}

/-- A mention overtakes another one **among more parts** too. -/
theorem Overtakes.mono (h : Overtakes all place parts s t) (hbetween : parts <:+: more) :
    Overtakes all place more s t := by
  obtain ⟨hparts, hclause, hfirst, hwithin, hsecond, hfront⟩ := h
  exact ⟨hparts.trans hbetween, hclause, hfirst, hwithin, hsecond, hfront⟩

/-- It does so among **any parts with which the same items are walked**. -/
theorem OvertakesIn.mono (h : OvertakesIn all place parts s t)
    (hitems : ∀ at_ item, WalkedAmong place parts at_ (.item item) →
      WalkedAmong between more at_ (.item item)) : OvertakesIn all between more s t := by
  obtain ⟨at_, item, hwalked, hovertakes⟩ := h
  exact ⟨at_, item, hitems at_ item hwalked, hovertakes⟩

/-- What happens in an item among parts that stand directly in another one happens **in an item that
is walked with that one**. -/
theorem OvertakesIn.inside {part : Part} (h : OvertakesIn all between parts s t)
    (hsub : placed between parts ⊆ part.children place) : OvertakesIn all place [part] s t :=
  h.mono fun _ _ hwalked => hwalked.inside hsub

/-- What happens among the parts of an item happens **in the item**. -/
theorem Overtakes.in_item {item : Item}
    (h : Overtakes all ((Part.item item).placeWithin place) item.parts s t) :
    OvertakesIn all place [.item item] s t :=
  ⟨place, item, ⟨_, List.mem_singleton_self _, .within .here⟩, h⟩

end Overtaking

/-! ### Mentions in order -/

namespace Orderly

variable {early other : Place × Mention → Place × Mention → Prop} {lo mid hi p : Position}
  {ms more : List (Place × Mention)}

/-- No mentions are in order. -/
theorem nil (h : lo ≤ hi) : Orderly early lo hi [] :=
  ⟨h, fun _ hm => absurd hm List.not_mem_nil, fun _ hm => absurd hm List.not_mem_nil, .nil⟩

/-- Mentions in order are so **between places further apart**. -/
theorem widen {lo' hi' : Position} (h : Orderly early lo hi ms) (hlo : lo' ≤ lo) (hhi : hi ≤ hi') :
    Orderly early lo' hi' ms :=
  ⟨(hlo.trans h.le).trans hhi,
    fun m hm p hp => ⟨hlo.trans (h.within m hm p hp).1, (h.within m hm p hp).2.trans hhi⟩,
    h.sorted, h.ordered⟩

/-- They are so if **more may come early**. -/
theorem mono (h : Orderly early lo hi ms) (hearly : ∀ s t, early s t → other s t) :
    Orderly other lo hi ms :=
  ⟨h.le, h.within, h.sorted, h.ordered.imp fun hst p hp q hq =>
    (hst p hp q hq).imp_right (Or.imp_left (hearly _ _))⟩

/-- Some of them are in order as well. -/
theorem sublist (h : Orderly early lo hi more) (hsub : ms.Sublist more) : Orderly early lo hi ms :=
  ⟨h.le, fun m hm => h.within m (hsub.subset hm), fun m hm => h.sorted m (hsub.subset hm),
    h.ordered.sublist hsub⟩

/-- Two rows of mentions make **one row** when each mention of the second follows those of the
first. -/
theorem join (h : Orderly early lo hi ms) (hmore : Orderly early lo hi more)
    (hfollows : ∀ s ∈ ms, ∀ t ∈ more, Follows early s t) : Orderly early lo hi (ms ++ more) := by
  refine ⟨h.le, fun m hm => ?_, fun m hm => ?_,
    List.pairwise_append.mpr ⟨h.ordered, hmore.ordered, hfollows⟩⟩
  · exact (List.mem_append.mp hm).elim (h.within m) (hmore.within m)
  · exact (List.mem_append.mp hm).elim (h.sorted m) (hmore.sorted m)

/-- Mentions of which the second ones stand **behind the first ones** are in order. -/
theorem append (h : Orderly early lo mid ms) (hmore : Orderly early mid hi more) :
    Orderly early lo hi (ms ++ more) := by
  refine (h.widen (le_refl _) hmore.le).join (hmore.widen h.le (le_refl _)) ?_
  intro s hs t ht p hp q hq
  exact Or.inl ((h.within s hs p hp).2.trans (hmore.within t ht q hq).1)

/-- So are mentions of which the second ones stand in front of the first ones, if these **may come
early**. -/
theorem append_early (h : Orderly early mid hi ms) (hmore : Orderly early lo mid more)
    (hearly : ∀ s ∈ ms, ∀ t ∈ more, early s t) : Orderly early lo hi (ms ++ more) :=
  (h.widen hmore.le (le_refl _)).join (hmore.widen (le_refl _) h.le)
    fun s hs t ht _ _ _ _ => Or.inr (Or.inl (hearly s hs t ht))

/-- One mention that stands at one place. -/
theorem single {m : Place × Mention} (hm : m.2.places = [p]) (hlo : lo ≤ p) (hhi : p ≤ hi) :
    Orderly early lo hi [m] := by
  refine ⟨hlo.trans hhi, ?_, ?_, List.pairwise_singleton _ _⟩
  · intro n hn q hq
    obtain rfl := List.mem_singleton.mp hn
    rw [hm] at hq
    obtain rfl := List.mem_singleton.mp hq
    exact ⟨hlo, hhi⟩
  · intro n hn
    obtain rfl := List.mem_singleton.mp hn
    rw [hm]
    exact List.pairwise_singleton _ _

/-- Mentions that make no call sites are in order **with any others**. -/
theorem append_silent (h : Orderly early lo hi more) (hms : ∀ m ∈ ms, m.2.places = []) :
    Orderly early lo hi (ms ++ more) := by
  have hnone : ∀ m ∈ ms, ∀ p, p ∉ m.2.places := fun m hm p hp => by simp [hms m hm] at hp
  have hsilent : Orderly early lo hi ms := by
    refine ⟨h.le, fun m hm p hp => absurd hp (hnone m hm p), fun m hm => hms m hm ▸ .nil, ?_⟩
    exact List.pairwise_of_forall_mem_list fun s hs t _ p hp => absurd hp (hnone s hs p)
  exact hsilent.join h fun s hs t _ p hp => absurd hp (hnone s hs p)

end Orderly

/-! ### Parts -/

/-- The mentions in parts of a construct are between two places and follow one another, but for what
overtakes others in an item among the parts. -/
def OrderlyParts (all : List Token) (lo hi : Position) (parts : List Part) : Prop :=
  ∀ place, Orderly (OvertakesIn all place parts) lo hi (inParts place parts)

/-- The same of parts that are still to be put together to **one item**: what stands in a late
clause among them may overtake others of them as well. -/
def OrderlyHeader (all : List Token) (lo hi : Position) (parts : List Part) : Prop :=
  ∀ place, Orderly (fun s t => OvertakesIn all place parts s t ∨ Overtakes all place parts s t)
    lo hi (inParts place parts)

namespace OrderlyParts

variable {all : List Token} {lo mid hi : Position} {parts more : List Part}

/-- The first of two places with parts between them is not behind the second one. -/
theorem le (h : OrderlyParts all lo hi parts) : lo ≤ hi :=
  (h ⟨[], none⟩).le

/-- No parts are in order between **two places in order**. -/
theorem nil (h : lo ≤ hi) : OrderlyParts all lo hi [] :=
  fun _ => .nil h

/-- Parts in order are so **between places further apart**. -/
theorem widen {lo' hi' : Position} (h : OrderlyParts all lo hi parts) (hlo : lo' ≤ lo)
    (hhi : hi ≤ hi') : OrderlyParts all lo' hi' parts :=
  fun place => (h place).widen hlo hhi

/-- Parts of which the second ones stand **behind the first ones** are in order. -/
theorem append (h : OrderlyParts all lo mid parts) (hmore : OrderlyParts all mid hi more) :
    OrderlyParts all lo hi (parts ++ more) := by
  intro place
  rw [inParts_append]
  exact ((h place).mono fun _ _ hst => hst.mono fun _ _ hwalked =>
    hwalked.mono (List.subset_append_left _ _)).append ((hmore place).mono fun _ _ hst =>
      hst.mono fun _ _ hwalked => hwalked.mono (List.subset_append_right _ _))

/-- One part **in front of others** is in order with them. -/
theorem cons {part : Part} (h : OrderlyParts all lo mid [part])
    (hmore : OrderlyParts all mid hi more) : OrderlyParts all lo hi (part :: more) :=
  h.append hmore

/-- Parts that stand directly in a part are in order **as this part**, if it mentions what they do
and besides only what makes no call sites. -/
theorem inside {part : Part} (h : OrderlyParts all lo hi parts)
    (hchildren : ∀ place, placed place parts ⊆ part.children place)
    (hmentions : ∀ place, ∃ silent, (∀ m ∈ silent, m.2.places = []) ∧
      inPart place part = silent ++ inParts place parts) : OrderlyParts all lo hi [part] := by
  intro place
  obtain ⟨silent, hsilent, heq⟩ := hmentions place
  rw [inParts, inParts, List.append_nil, heq]
  exact ((h place).mono fun _ _ hst => hst.inside (hchildren place)).append_silent hsilent

/-- Parts in order are in order **as the header** of an item. -/
theorem header (h : OrderlyParts all lo hi parts) : OrderlyHeader all lo hi parts :=
  fun place => (h place).mono fun _ _ => Or.inl

end OrderlyParts

namespace OrderlyHeader

variable {all : List Token} {lo mid hi : Position} {parts more : List Part}

/-- The first of two places with the header of an item between them is not behind the second one. -/
theorem le (h : OrderlyHeader all lo hi parts) : lo ≤ hi :=
  (h ⟨[], none⟩).le

/-- What overtakes others among parts does so **among more of them**. -/
theorem orderly_of_isInfix (h : OrderlyHeader all lo hi parts) (hbetween : parts <:+: more)
    (place : Place) : Orderly (fun s t => OvertakesIn all place more s t ∨
      Overtakes all place more s t) lo hi (inParts place parts) :=
  (h place).mono fun _ _ => Or.imp
    (fun hst => hst.mono fun _ _ hwalked => hwalked.mono hbetween.subset)
    fun hst => hst.mono hbetween

/-- A header of which the second part stands **behind the first one** is in order: a late clause in
one of them overtakes what is in the same part. -/
theorem append (h : OrderlyHeader all lo mid parts) (hmore : OrderlyHeader all mid hi more) :
    OrderlyHeader all lo hi (parts ++ more) := by
  intro place
  rw [inParts_append]
  exact (h.orderly_of_isInfix (List.prefix_append _ _).isInfix place).append
    (hmore.orderly_of_isInfix (List.suffix_append _ _).isInfix place)

/-- **An item is in order** when its parts are as its header: what overtakes others among its parts
does so in the item. -/
theorem item {item : Item} (h : OrderlyHeader all lo hi item.parts) :
    OrderlyParts all lo hi [.item item] := by
  intro place
  rw [inParts, inParts, List.append_nil, inPart, inItem_eq_inParts]
  exact (h _).mono fun _ _ hst => hst.elim
    (fun hinside => hinside.inside (children_item place item ▸ List.Subset.refl _))
    Overtakes.in_item

end OrderlyHeader

/-- Parts between two places that stand in **clauses that are walked too early**. -/
structure LateParts (all : List Token) (lo hi : Position) (parts : List Part) : Prop where
  /-- They are in order among themselves. -/
  orderly : OrderlyParts all lo hi parts
  /-- What they mention stands in late clauses that they are made of. -/
  late : ∀ place, ∀ m ∈ inParts place parts, ∃ front clause back w c,
    parts = front ++ (clause ++ back) ∧ LateClause all clause w c ∧ m ∈ inParts place clause ∧
      lo ≤ w ∧ ∀ p ∈ m.2.places, w ≤ p ∧ p ≤ c

namespace LateParts

variable {all : List Token} {lo mid hi : Position} {parts more : List Part}

/-- No parts are late clauses anywhere. -/
theorem nil (h : lo ≤ hi) : LateParts all lo hi [] :=
  ⟨.nil h, fun _ _ hm => absurd hm List.not_mem_nil⟩

/-- The parts that are read from a late clause stand in it. -/
theorem of_clause {w : Position} (hclause : LateClause all parts w hi) (hlo : lo ≤ w)
    (h : OrderlyParts all w hi parts) : LateParts all lo hi parts :=
  ⟨h.widen hlo (le_refl hi), fun place m hm =>
    ⟨[], parts, [], w, hi, by simp, hclause, hm, hlo, (h place).within m hm⟩⟩

/-- Late clauses **behind late clauses** are late clauses. -/
theorem join (h : LateParts all lo mid parts) (hmore : LateParts all mid hi more) :
    LateParts all lo hi (parts ++ more) := by
  refine ⟨h.orderly.append hmore.orderly, fun place m hm => ?_⟩
  rw [inParts_append] at hm
  rcases List.mem_append.mp hm with hm | hm
  · obtain ⟨front, clause, back, w, c, rfl, hlate⟩ := h.late place m hm
    exact ⟨front, clause, back ++ more, w, c, by simp, hlate⟩
  · obtain ⟨front, clause, back, w, c, rfl, hclause, hin, hw, hp⟩ := hmore.late place m hm
    exact ⟨parts ++ front, clause, back, w, c, by simp, hclause, hin, h.orderly.le.trans hw, hp⟩

/-- Late clauses are so from any place **in front of them**. -/
theorem behind (h : LateParts all mid hi parts) (hle : lo ≤ mid) : LateParts all lo hi parts :=
  (LateParts.nil hle).join h

/-- Late clauses are in order **in front of what they stand behind** in one item. -/
theorem append (h : LateParts all mid hi parts) (hmore : OrderlyHeader all lo mid more) :
    OrderlyHeader all lo hi (parts ++ more) := by
  intro place
  rw [inParts_append]
  refine ((h.orderly.header).orderly_of_isInfix (List.prefix_append _ _).isInfix place).append_early
    (hmore.orderly_of_isInfix (List.suffix_append _ _).isInfix place) fun s hs t ht => ?_
  obtain ⟨front, clause, back, w, c, rfl, hclause, hin, hw, hp⟩ := h.late place s hs
  refine Or.inr (.clause ⟨front, [], ?_⟩ hclause hin hp
    (inParts_append place back more ▸ List.mem_append_right _ ht)
    fun q hq => ((hmore place).within t ht q hq).2.trans hw)
  simp

end LateParts

end CapabilityGate.Program
