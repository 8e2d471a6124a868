import CapabilityGate.Proofs.Program.ReadingOrder

/-!
# Types in the order of the text

The rules for attributes, paths, types and generic parameters yield constructs whose mentions follow
one another, if the readers that they need do. The conditions of an item are read behind what they
are walked before.

## Main definitions

* `Tidy`: segments of which those that are written without arguments have none.
* `OrderlySegments`, `OrderlyPath`: segments in order, and a path behind parts in front of it.

## Main results

* `Grammar.InOrder.typeRule`, `Grammar.InOrder.boundRule`: types and bounds.
* `Grammar.InOrder.whereClause`: conditions, a clause that is walked too early.
* `Grammar.InOrder.invocation`: the use of a macro, whichever way its tokens read.
-/

namespace CapabilityGate.Program.Grammar

open Reader

variable {all : List Token} {g : Grammar} {e lo mid hi : Position} {structs inExpr : Bool}

/-! ### Expressions, paths without arguments and macros -/

/-- An expression is read in order **whether or not a brace may open a structure** in it. -/
theorem InOrder.exprWith (hg : g.InOrder all) :
    (g.exprWith structs).Yields all e lo fun hi x => OrderlyExpr all lo hi x :=
  (hg.unary structs e lo).bind fun mid left hleft => hg.climb structs left .jump e lo mid hleft

/-- So is an expression of any form. -/
theorem InOrder.expr (hg : g.InOrder all) :
    g.expr.Yields all e lo fun hi x => OrderlyExpr all lo hi x :=
  hg.exprWith

/-- Types between commas. -/
theorem InOrder.types (hg : g.InOrder all) {plus : Bool} :
    (terminated (g.type plus)).Yields all e lo fun hi ts =>
      OrderlyParts all lo hi (ts.map .type) := by
  simp only [List.map_eq_flatMap]
  exact .terminated fun mid => hg.type plus e mid

/-- Expressions between commas. -/
theorem InOrder.exprs (hg : g.InOrder all) :
    (terminated g.expr).Yields all e lo fun hi es => OrderlyParts all lo hi (es.map .expr) := by
  simp only [List.map_eq_flatMap]
  exact .terminated fun mid => hg.expr.mono fun _ _ hx => hx.part

instance : Skips plainPath where
  skips all e lo := by
    unfold plainPath
    refine .skip fun global => .skip fun x => ?_
    obtain ⟨names, open_⟩ := x
    dsimp only
    exact Skips.skips all e lo

/-- The use of a macro is in order **whichever way its tokens read**. -/
theorem InOrder.invocation (hg : g.InOrder all) (name : Path) :
    (g.invocation name).Yields all e lo fun hi use => OrderlyParts all lo hi [.invoke use] := by
  refine Yields.anyGroup.bind fun hi x ⟨opens, hlo, htokens⟩ => .pure ?_
  rw [readingOf]
  split
  next members hread =>
    obtain ⟨mid, hmid, hmembers⟩ := hg.exprs.run htokens hread
    exact (hmembers.widen hlo hmid).invokeList
  next => exact (OrderlyParts.invokeRaw htokens.laid).widen hlo (le_refl hi)

/-! ### Attributes and blocks -/

/-- What an attribute says is read in order: its path mentions nothing, and its value stands
**behind the path**. -/
theorem InOrder.meta_ (hg : g.InOrder all) :
    g.meta_.Yields all e lo fun hi parts => OrderlyParts all lo hi parts := by
  unfold Grammar.meta_
  refine .skip fun isUnsafe => ?_
  extract_lets -underBinder behind
  have hbehind : ∀ u, (behind u).Yields all e lo fun hi parts => OrderlyParts all lo hi parts := by
    refine fun _ => .skip fun ts => ?_
    split
    · exact .skip fun _ => .pure (.nil (le_refl lo))
    · refine .skip fun valued => ?_
      split
      · refine .skip fun alone => ?_
        split
        · exact .skip fun _ => .pure (.nil (le_refl lo))
        · refine .skip fun ts => ?_
          dsimp only
          split
          · exact .fails
          · exact hg.expr.bind fun hi x hx => .pure hx.part
      · exact .pure (.nil (le_refl lo))
  split <;> exact .skip hbehind

/-- An attribute, from its hash on. -/
theorem InOrder.attribute_ (hg : g.InOrder all) (inner : Bool) :
    (g.attribute_ inner).Yields all e lo fun hi a => OrderlyAttributes all lo hi a := by
  refine .here fun p hp => .skip fun _ => ?_
  extract_lets -underBinder behind
  have hbehind : ∀ u, (behind u).Yields all e p fun hi a => OrderlyAttributes all lo hi a := by
    refine fun _ => (Yields.inGroup fun e o => hg.meta_).bind fun hi parts hparts => .pure ?_
    refine ⟨hparts.widen hp (le_refl hi), fun q hq => ?_, fun hnone => nomatch hnone⟩
    cases hq
    exact ⟨hp, hparts.le⟩
  split
  · exact .skip hbehind
  · exact hbehind ()

/-- A mark that was taken was **the next token**. -/
theorem rest_eq_of_mark {op : String} {c : Char} {i j : Input} {u : Unit} (hop : op.toList = [c])
    (h : mark op i = .ok (u, j)) : ∃ joint p, i.rest = .mark c joint p :: j.rest := by
  rw [mark, hop] at h
  split at h
  next rest hrest =>
    cases h
    cases hi : i.rest with
    | nil => simp [hi, dropMarks] at hrest
    | cons t ts =>
        rw [hi] at hrest
        cases t with
        | mark d joint p =>
            rw [dropMarks] at hrest
            split at hrest
            next hcd =>
              cases hrest
              obtain rfl := eq_of_beq hcd
              exact ⟨joint, p, rfl⟩
            next => cases hrest
        | _ => simp [dropMarks] at hrest
  next => cases h

/-- An attribute of the body that it stands in is **walked too early**. -/
theorem InOrder.innerAttribute (hg : g.InOrder all) :
    (g.attribute_ true).Yields all e lo fun hi a => LateParts all lo hi a.parts := by
  intro i a j hleft hread
  have hattribute := hread
  obtain ⟨p, k, hplace, hread⟩ := bind_eq_ok.mp hread
  cases hplace
  obtain ⟨u, k, hhash, hread⟩ := bind_eq_ok.mp hread
  obtain ⟨v, k', hbang, hread⟩ := bind_eq_ok.mp hread
  obtain ⟨parts, k'', hgroup, hread⟩ := bind_eq_ok.mp hread
  cases hread
  obtain ⟨b, p, hfirst⟩ := rest_eq_of_mark (c := '#') rfl hhash
  obtain ⟨c, q, hsecond⟩ := rest_eq_of_mark (c := '!') rfl hbang
  obtain ⟨body, opens, closes, rest, l, hthird, hinside, rfl⟩ := group_eq_ok hgroup
  rw [hsecond, hthird] at hfirst
  have htokens := hfirst ▸ hleft
  obtain ⟨hlo, hlaid⟩ := htokens.laid.head
  obtain ⟨hp, hbody, hbehind⟩ := (Left.mk hlaid htokens.among).tail.tail.group
  obtain ⟨hi, hrest, hparts⟩ := hg.meta_ _ _ _ hbody hinside
  obtain ⟨depth, rfl⟩ := hg.depth
  exact ⟨closes, hbehind, .of_clause (.attribute hleft.among hfirst hattribute) hlo
    (hparts.widen hp hrest.laid.le)⟩

/-- The attributes in front of a construct are read in order, and **start where the first of them
does**. -/
theorem InOrder.outerAttributes (hg : g.InOrder all) :
    g.outerAttributes.Yields all e lo fun hi a => OrderlyAttributes all lo hi a := by
  refine (Yields.collectWith (fun mid as =>
    OrderlyAttributes all lo mid (as.foldl (· ++ ·) .empty)) (.empty (le_refl lo))
    fun mid as has => .skip fun more => ?_).bind fun hi as has => .pure has
  split
  · refine (hg.attribute_ false).bind fun hi a ha => .pure ?_
    change OrderlyAttributes all lo hi ((as ++ [a]).foldl (· ++ ·) .empty)
    rw [List.foldl_append]
    exact has.append ha
  · exact .pure has

/-- The attributes at the start of a body are read in order, and each of them is a **late clause**
of the item that has the body. -/
theorem InOrder.innerAttributes (hg : g.InOrder all) :
    g.innerAttributes.Yields all e lo fun hi parts => LateParts all lo hi parts := by
  refine (Yields.collectWith (fun mid as => LateParts all lo mid (as.flatMap Attributes.parts))
    (.nil (le_refl lo)) fun mid as has => .skip fun ts => ?_).bind fun hi as has => .pure has
  split
  · refine hg.innerAttribute.bind fun hi a ha => .pure ?_
    change LateParts all lo hi ((as ++ [a]).flatMap Attributes.parts)
    rw [List.flatMap_append, List.flatMap_singleton]
    exact has.join ha
  · exact .pure has

/-- The statements of a block are read in order. -/
theorem InOrder.plainBlock (hg : g.InOrder all) :
    g.plainBlock.Yields all e lo fun hi parts => OrderlyParts all lo hi parts :=
  .inGroup fun e o => hg.statements e o

/-- So are those of a block **behind attributes of its own**. -/
theorem InOrder.body (hg : g.InOrder all) :
    g.body.Yields all e lo fun hi parts => OrderlyParts all lo hi parts :=
  .inGroup fun e _ => hg.innerAttributes.bind fun mid _ hinner =>
    (hg.statements e mid).bind fun _ _ hstatements => .pure (hinner.orderly.append hstatements)

/-- A block is an expression in order **with its attributes and its label**. -/
theorem InOrder.blockExpr (hg : g.InOrder all) :
    g.blockExpr.Yields all e lo fun hi x => OrderlyExpr all lo hi x := by
  refine hg.outerAttributes.bind fun mid a ha => .skip fun labelled => ?_
  extract_lets -underBinder block
  have hblock : ∀ u, (block u).Yields all e mid fun hi x => OrderlyExpr all lo hi x :=
    fun _ => hg.body.bind fun hi parts hparts => .pure (ha.withAttributes (.compound hparts))
  split
  · exact .skip hblock
  · exact hblock ()

/-! ### Generic arguments -/

/-- A value as a generic argument is read in order, whether it is a literal, a name or a block. -/
theorem InOrder.constArgument (hg : g.InOrder all) :
    g.constArgument.Yields all e lo fun hi x => OrderlyExpr all lo hi x := by
  refine .skip fun ts => ?_
  split
  · exact .skip fun _ => .pure (.compound (.nil (le_refl lo)))
  split
  · exact .here fun p hp => .skip fun name => .pure (.path hp (le_refl p))
  split
  · exact hg.blockExpr
  · exact .fails

/-- The type behind an arrow is read in order, **and so is no type**. -/
theorem InOrder.returnType (hg : g.InOrder all) (plus : Bool) :
    (g.returnType plus).Yields all e lo fun hi parts => OrderlyParts all lo hi parts := by
  refine .skip fun arrow => ?_
  split
  · exact (hg.type plus e lo).bind fun hi t ht => .pure ht
  · exact .pure (.nil (le_refl lo))

/-- The arguments of a function trait stand **in front of what it returns**. -/
theorem InOrder.parenArguments (hg : g.InOrder all) :
    g.parenArguments.Yields all e lo fun hi parts => OrderlyParts all lo hi parts :=
  (Yields.inGroup fun _ _ => hg.types).bind fun _ _ hinputs =>
    (hg.returnType false).bind fun _ _ houtput => .pure (hinputs.append houtput)

/-- The lifetimes of a binder are read in order, **each behind its attributes**. -/
theorem InOrder.binder (hg : g.InOrder all) :
    g.binder.Yields all e lo fun hi parts => OrderlyParts all lo hi parts := by
  refine .skip fun _ => .skip fun _ => (Yields.iterate
    (fun mid done => OrderlyParts all lo mid done) (.nil (le_refl lo))
    fun mid done hdone => .skip fun ended => ?_).bind
      fun hi parts hparts => .skip fun _ => .pure hparts
  split
  · exact .pure hdone
  · refine hg.outerAttributes.bind fun hi a ha => .skip fun _ => .skip fun bounded => ?_
    extract_lets -underBinder behind
    have hbehind : ∀ u, (behind u).Yields all e hi fun hi x =>
        x.elim (OrderlyParts all lo hi) (OrderlyParts all lo hi) := by
      refine fun _ => .skip fun ended => ?_
      split
      · exact .pure (hdone.append ha.parts)
      · exact .skip fun _ => .pure (hdone.append ha.parts)
    split
    · exact .skip hbehind
    · exact hbehind ()

/-- So they are where a binder **need not stand**. -/
theorem InOrder.binder? (hg : g.InOrder all) :
    g.binder?.Yields all e lo fun hi x => OrderlyParts all lo hi (x.getD []) := by
  refine .skip fun there => ?_
  split
  · exact hg.binder.bind fun hi parts hparts => .pure hparts
  · exact .pure (.nil (le_refl lo))

/-! ### Paths -/

/-- Segments are **tidy** when those that are written without arguments have none. -/
def Tidy (segments : List Segment) : Prop :=
  ∀ s ∈ segments, s.style = .none → s.args = []

/-- Segments are tidy **behind tidy ones**. -/
theorem Tidy.append {segments more : List Segment} (h : Tidy segments) (hmore : Tidy more) :
    Tidy (segments ++ more) :=
  fun s hs => (List.mem_append.mp hs).elim (h s) (hmore s)

/-- The last segment of a tidy path that is bare **has no arguments**. -/
theorem Tidy.last_eq_nil {p : Path} {before : List Segment} {name : Word} {style : ArgumentStyle}
    {last : List Part} (h : Tidy p.segments) (hbare : lastIsBare p = true)
    (hsplit : p.segments = before ++ [.mk name style last]) : last = [] := by
  have htidy := h (.mk name style last) (hsplit ▸ List.mem_append_right _ List.mem_cons_self)
  rw [lastIsBare, hsplit, List.getLast?_concat] at hbare
  simp only [Bool.or_eq_true, Bool.and_eq_true, beq_iff_eq, List.isEmpty_iff] at hbare
  exact hbare.elim htidy And.right

/-- The arguments of segments are in order, and the segments **are tidy**. -/
structure OrderlySegments (all : List Token) (lo hi : Position) (segments : List Segment) :
    Prop where
  /-- The arguments are in order. -/
  args : OrderlyParts all lo hi (segments.flatMap Segment.args)
  /-- The segments are tidy. -/
  tidy : Tidy segments

/-- Segments in order are so **behind segments in order**. -/
theorem OrderlySegments.append {segments more : List Segment}
    (h : OrderlySegments all lo mid segments) (hmore : OrderlySegments all mid hi more) :
    OrderlySegments all lo hi (segments ++ more) :=
  ⟨List.flatMap_append ▸ h.args.append hmore.args, h.tidy.append hmore.tidy⟩

/-- A tidy path is in order **behind the parts in front of it**. -/
structure OrderlyPath (all : List Token) (lo hi : Position) (front : List Part) (p : Path) :
    Prop where
  /-- The parts in front and the path are in order. -/
  parts : OrderlyParts all lo hi (front ++ [.path p])
  /-- The path is tidy. -/
  tidy : Tidy p.segments

/-- Segments in order make up a path. -/
theorem OrderlySegments.path {global : Bool} {segments : List Segment}
    (h : OrderlySegments all lo hi segments) : OrderlyPath all lo hi [] (.mk global segments) :=
  ⟨orderlyParts_path.mpr h.args, h.tidy⟩

/-- A path is in order behind **parts that stand in front of it**. -/
theorem OrderlyPath.behind {front : List Part} {p : Path} (h : OrderlyPath all mid hi [] p)
    (hfront : OrderlyParts all lo mid front) : OrderlyPath all lo hi front p :=
  ⟨hfront.append h.parts, h.tidy⟩

/-- More segments stand **behind those of a path**. -/
theorem OrderlyPath.moreSegments {front : List Part} {p : Path} {global : Bool}
    {segments : List Segment} (h : OrderlyPath all lo mid front p)
    (hmore : OrderlySegments all mid hi segments) :
    OrderlyPath all lo hi front (.mk global (p.segments ++ segments)) := by
  refine ⟨?_, h.tidy.append hmore.tidy⟩
  have hparts := orderlyParts_append_path.mp h.parts
  rw [orderlyParts_append_path, Path.segments, List.flatMap_append, ← List.append_assoc]
  exact hparts.append hmore.args

/-- Arguments in round brackets stand **behind a path that has none at its end**. -/
theorem OrderlyPath.withParenArguments {front : List Part} {p : Path} {args : List Part}
    (h : OrderlyPath all lo mid front p) (hbare : lastIsBare p = true)
    (hargs : OrderlyParts all mid hi args) :
    OrderlyPath all lo hi front (withParenArguments p args) := by
  rw [Grammar.withParenArguments]
  cases hsegments : p.segments.reverse with
  | nil => exact ⟨h.parts.widen (le_refl lo) hargs.le, h.tidy⟩
  | cons segment before =>
      obtain ⟨name, style, last⟩ := segment
      have hsplit : p.segments = before.reverse ++ [.mk name style last] := by
        rw [← List.reverse_reverse p.segments, hsegments, List.reverse_cons]
      obtain rfl := h.tidy.last_eq_nil hbare hsplit
      have hparts := orderlyParts_append_path.mp h.parts
      rw [hsplit, List.flatMap_append, List.flatMap_singleton, Segment.args,
        List.append_nil] at hparts
      refine ⟨?_, ?_⟩
      · rw [orderlyParts_append_path, Path.segments, List.reverse_cons, List.flatMap_append,
          List.flatMap_singleton, ← List.append_assoc]
        exact hparts.append hargs
      · rw [Path.segments, List.reverse_cons]
        refine Tidy.append (fun s hs => h.tidy s (hsplit ▸ List.mem_append_left _ hs)) ?_
        intro s hs hstyle
        obtain rfl := List.mem_singleton.mp hs
        cases hstyle

/-- One bound after another, whatever stands between them. -/
theorem InOrder.boundsUntil (hg : g.InOrder all) (stop : List Token → Bool) :
    (g.boundsUntil stop).Yields all e lo fun hi parts => OrderlyParts all lo hi parts :=
  (Yields.joined fun mid => hg.bound false true e mid).bind fun _ _ h => .pure h

/-- A generic argument is read in order: a type, or **a group** of what stands in a lifetime, a
value or a constraint. -/
theorem InOrder.argument (hg : g.InOrder all) :
    g.argument.Yields all e lo fun hi part => OrderlyParts all lo hi [part] := by
  refine .skip fun ts => ?_
  split
  · exact .skip fun _ => .pure (orderlyParts_group.mpr (.nil (le_refl lo)))
  split
  · exact hg.constArgument.bind fun hi x hx => .pure (orderlyParts_group.mpr hx.part)
  refine (hg.type true e lo).bind fun mid t ht => ?_
  split
  next name style args =>
    have hargs : OrderlyParts all lo mid args := by
      rw [orderlyParts_typePath, orderlyParts_path] at ht
      simpa [Path.segments, Segment.args] using ht
    split
    · exact .pure ht
    refine .skip fun equated => ?_
    split
    · refine .skip fun ts => ?_
      split
      · exact hg.constArgument.bind fun hi x hx =>
          .pure (orderlyParts_group.mpr (hargs.append hx.part))
      · exact (hg.type true e mid).bind fun hi u hu =>
          .pure (orderlyParts_group.mpr (hargs.append hu))
    refine .skip fun bounded => ?_
    split
    · exact (Yields.joined fun mid => hg.bound false true e mid).bind fun hi bounds hbounds =>
        .pure (orderlyParts_group.mpr (hargs.append hbounds))
    · exact .pure ht
  next => exact .pure ht

/-- The arguments in angle brackets are read **one behind the other**. -/
theorem InOrder.angleArguments (hg : g.InOrder all) :
    g.angleArguments.Yields all e lo fun hi parts => OrderlyParts all lo hi parts := by
  refine .skip fun _ => .skip fun _ =>
    (Yields.iterate (fun mid done => OrderlyParts all lo mid done.reverse) (.nil (le_refl lo))
      fun mid done hdone => .skip fun ended => ?_).bind fun hi parts hparts =>
        .skip fun _ => .pure hparts
  split
  · exact .pure hdone
  refine hg.argument.bind fun hi arg harg => .skip fun last => ?_
  have hdone : OrderlyParts all lo hi (arg :: done).reverse := by
    rw [List.reverse_cons]
    exact hdone.append harg
  split
  · exact .pure hdone
  · exact .skip fun _ => .pure hdone

/-- A segment is read in order, with the arguments **behind its name**. -/
theorem InOrder.segment (hg : g.InOrder all) :
    (g.segment inExpr).Yields all e lo fun hi s => OrderlySegments all lo hi [s] := by
  have hone : ∀ {hi name style args}, OrderlyParts all lo hi args → (style = .none → args = []) →
      OrderlySegments all lo hi [.mk name style args] := by
    intro hi name style args hargs htidy
    refine ⟨by rwa [List.flatMap_singleton], fun s hs => ?_⟩
    obtain rfl := List.mem_singleton.mp hs
    exact htidy
  refine .skip fun reserved => ?_
  split
  · exact .skip fun _ => .pure (hone (.nil (le_refl lo)) fun _ => rfl)
  refine .skip fun isSelf => ?_
  extract_lets -underBinder arguments
  have harguments : ∀ name, (arguments name).Yields all e lo fun hi s =>
      OrderlySegments all lo hi [s] := by
    refine fun name => .skip fun ts => ?_
    split
    · exact hg.angleArguments.bind fun hi args hargs => .pure (hone hargs nofun)
    · exact .pure (hone (.nil (le_refl lo)) fun _ => rfl)
  split <;> exact .skip harguments

/-- Segments that are read **one after the other** are in order. -/
theorem collect_segments {r : Reader (Option Segment)} (hr : ∀ mid, r.Yields all e mid fun hi x =>
      x.elim (mid ≤ hi) fun s => OrderlySegments all mid hi [s]) :
    (collect r).Yields all e lo fun hi more => OrderlySegments all lo hi more := by
  refine .collectWith (fun mid more => OrderlySegments all lo mid more)
    ⟨.nil (le_refl lo), fun _ hs => absurd hs List.not_mem_nil⟩ fun mid more hmore =>
      (hr mid).mono fun hi x hx => ?_
  cases x with
  | none => exact ⟨hmore.args.widen (le_refl lo) hx, hmore.tidy⟩
  | some s => exact hmore.append hx

/-- The segments behind a first one are read in order. -/
theorem InOrder.moreSegments (hg : g.InOrder all) :
    (g.moreSegments inExpr).Yields all e lo fun hi more => OrderlySegments all lo hi more := by
  refine collect_segments fun mid => .skip fun ts => ?_
  split
  · exact .skip fun _ => hg.segment.bind fun _ _ hs => .pure hs
  · exact .pure (le_refl mid)

/-- A path is read in order **by its own segments**, with no parts in front of it. -/
theorem InOrder.path (hg : g.InOrder all) :
    (g.path inExpr).Yields all e lo fun hi p => OrderlyPath all lo hi [] p :=
  .skip fun _ => hg.segment.bind fun _ _ hfirst => hg.moreSegments.bind fun _ _ hmore =>
    .pure (hfirst.append hmore).path

/-- The names in `use<..>` have no places. -/
instance : Skips (iterate (fun (_ : Unit) => do
    if ← sees (atMark ">") then return .inr ()
    if ← sees Program.atLifetime then lifetime
    else if ← sees (atName "Self") then any
    else discard ident
    if ← sees (atMark ">") then return .inr ()
    mark ","
    return .inl ()) ()) :=
  Yields.skips fun all e lo => .iterate (fun mid _ => lo ≤ mid) (le_refl lo) fun mid _ hmid => by
    refine .skip fun ended => .ite (.pure hmid) (.skip fun isLifetime => ?_)
    extract_lets -underBinder captured
    have hcaptured : ∀ u, (captured u).Yields all e mid fun hi x =>
        x.elim (fun _ => lo ≤ hi) fun _ => lo ≤ hi :=
      fun _ => .skip fun last => .ite (.pure hmid) (.skip fun _ => .pure hmid)
    exact .ite (.skip hcaptured) (.skip fun isSelf => .ite (.skip hcaptured) (.skip hcaptured))

/-- The trait of a bound is in order **behind its binder**. -/
theorem InOrder.boundTrait (hg : g.InOrder all) {binder : Option (List Part)} {isConst : Bool}
    (hbinder : OrderlyParts all lo mid (binder.getD [])) :
    (do
      let name ← g.path false
      let name ← if lastIsBare name && (← sees atParenArguments) then do
          discard (mark? "::")
          pure (withParenArguments name (← g.parenArguments))
        else pure name
      if isConst then return (true, [])
      return (true, binder.getD [] ++ [.path name]) : Reader (Bool × List Part)).Yields all e mid
        fun hi x => OrderlyParts all lo hi x.2 := by
  refine hg.path.bind fun hi name hname => .skip fun called => ?_
  extract_lets -underBinder result
  have hresult : ∀ hi name, OrderlyParts all mid hi [.path name] →
      (result name).Yields all e hi fun hi x => OrderlyParts all lo hi x.2 :=
    fun hi name hname => .ite (.pure (.nil (hbinder.le.trans hname.le)))
      (.pure (hbinder.append hname))
  split
  next hbare =>
    exact .skip fun _ => hg.parenArguments.bind fun hi args hargs => hresult hi _
      (hname.withParenArguments (Bool.and_eq_true_iff.mp hbare).1 hargs).parts
  next => exact hresult hi name hname.parts

/-- A bound is in order, with the binder in front of its trait. -/
theorem InOrder.boundRule (hg : g.InOrder all) (captures consts : Bool) :
    (g.boundRule captures consts).Yields all e lo fun hi x => OrderlyParts all lo hi x.2 := by
  refine .skip fun atLifetime => .ite (.skip fun _ => .pure (.nil (le_refl lo)))
    (.skip fun atUse => ?_)
  extract_lets -underBinder bound
  have hbound : ∀ u, (bound u).Yields all e lo fun hi x => OrderlyParts all lo hi x.2 := by
    intro u
    dsimp -zeta only [bound]
    extract_lets -underBinder trait_
    have htrait : ∀ e lo, trait_.Yields all e lo fun hi x => OrderlyParts all lo hi x.2 := by
      intro e lo
      refine hg.binder?.bind fun mid binder hbinder => .skip fun p => .skip fun conditional =>
        .skip fun isConst => ?_
      extract_lets -underBinder marked
      have hmarked : ∀ u, (marked u).Yields all e mid fun hi x => OrderlyParts all lo hi x.2 :=
        fun _ => .skip fun maybe => .ite
          (hg.binder?.bind fun hi _ hagain =>
            hg.boundTrait (hagain.widen hbinder.le (le_refl hi)))
          (hg.boundTrait hbinder)
      exact .ite (.skip hmarked) (hmarked ())
    exact .skip fun grouped => .ite (.inGroup htrait) (htrait e lo)
  exact .ite (.skip fun p => .skip fun _ => .skip fun _ => .skip fun _ => .skip fun _ =>
    .ite (.pure (.nil (le_refl lo))) .fails) (hbound ())

/-- The type in front of a path and the path are in order. -/
theorem InOrder.qualifiedPath (hg : g.InOrder all) :
    (g.qualifiedPath inExpr).Yields all e lo fun hi x =>
      OrderlyPath all lo hi (x.1.map fun owner => Part.type owner.1).toList x.2 := by
  unfold Grammar.qualifiedPath
  refine .skip fun qualified => ?_
  split
  · refine .skip fun _ => (hg.type true e lo).bind fun mid owner howner => .skip fun isTrait => ?_
    extract_lets -underBinder behind
    have hbehind : ∀ mid trait_, OrderlyPath all lo mid [.type owner]
        (trait_.getD (.mk true [])) → (behind trait_).Yields all e mid fun hi x =>
          OrderlyPath all lo hi (x.1.map fun owner => Part.type owner.1).toList x.2 := by
      intro mid trait_ htrait
      refine .skip fun _ => .skip fun _ => hg.segment.bind fun _ first hfirst =>
        (collect_segments fun mid => .skip fun more => ?_).bind fun hi more hmore => ?_
      · split
        · exact hg.segment.bind fun _ _ hs => .pure hs
        · exact .pure (le_refl mid)
      · cases trait_ with
        | some p => exact .pure (htrait.moreSegments (hfirst.append hmore))
        | none => exact .pure (htrait.moreSegments (hfirst.append hmore))
    split
    · exact (Yields.map (P := fun hi p => OrderlyPath all mid hi [] (p.getD (.mk true [])))
        hg.path).bind fun hi trait_ htrait => hbehind hi trait_ (htrait.behind howner)
    · exact hbehind mid none ⟨howner.append (orderlyParts_path.mpr (.nil (le_refl mid))),
        fun _ hs => absurd hs List.not_mem_nil⟩
  · exact hg.path.bind fun hi p hp => .pure hp

/-! ### Types -/

/-- Bounds are read in order, **however they may be joined**. -/
theorem InOrder.bounds (hg : g.InOrder all) (plus captures consts : Bool) :
    (g.bounds plus captures consts).Yields all e lo fun hi x => OrderlyParts all lo hi x.2 := by
  refine (Yields.iterate (P := fun hi found => OrderlyParts all lo hi (found.flatMap Prod.snd))
    (fun mid done => OrderlyParts all lo mid (done.flatMap Prod.snd)) (.nil (le_refl lo))
    fun mid done hdone => (hg.bound captures consts e mid).bind fun hi x hx => ?_).bind
      fun hi found hfound => .pure hfound
  have hdone : OrderlyParts all lo hi ((done ++ [x]).flatMap Prod.snd) := by
    rw [List.flatMap_append, List.flatMap_singleton]
    exact hdone.append hx
  dsimp only
  split
  · refine .skip fun more => ?_
    split
    · refine .skip fun bound => ?_
      split <;> exact .pure hdone
    · exact .pure hdone
  · exact .pure hdone

/-- So are those of a trait object. -/
theorem InOrder.objectBounds (hg : g.InOrder all) (p : Position) (plus : Bool) :
    (g.objectBounds p plus).Yields all e lo fun hi parts => OrderlyParts all lo hi parts := by
  refine (hg.bounds plus false false).bind fun hi x hx => ?_
  dsimp only
  split
  · exact .pure hx
  · exact .fails

/-- A trait object is a type in order, **with its keyword or without**. -/
theorem InOrder.traitObject (hg : g.InOrder all) :
    g.traitObject.Yields all e lo fun hi t => OrderlyParts all lo hi [.type t] :=
  .skip fun p => (Yields.withText (.skip fun _ => hg.objectBounds p true)).bind fun _ _ hx =>
    .pure (orderlyParts_other.mpr hx)

/-- The bounds behind a first one are read in order. -/
theorem InOrder.moreBounds (hg : g.InOrder all) :
    g.moreBounds.Yields all e lo fun hi parts => OrderlyParts all lo hi parts := by
  refine (Yields.collect (f := id) fun mid => .skip fun more => ?_).bind fun hi found hfound => ?_
  · split
    · exact (hg.bound false false e mid).bind fun hi x hx => .found hx
    · exact .nothing
  · rw [List.flatMap_id] at hfound
    exact .pure hfound

/-- A path as a type is in order, with the type in front of it and with arguments in round brackets
behind any of its segments. -/
theorem InOrder.typePath (hg : g.InOrder all) :
    g.typePath.Yields all e lo fun hi x =>
      OrderlyPath all lo hi (x.1.map fun owner => Part.type owner.1).toList x.2 := by
  refine hg.qualifiedPath.bind fun mid x hx => ?_
  obtain ⟨owner, p⟩ := x
  generalize hfront : (owner.map fun owner => Part.type owner.1).toList = front at hx
  refine (Yields.iterate (P := fun hi p => OrderlyPath all lo hi front p)
    (fun hi p => OrderlyPath all lo hi front p) hx fun mid p hp => .skip fun called => ?_).bind
      fun hi p hp => .pure (hfront ▸ hp)
  split
  next hbare =>
    refine .skip fun _ => (Yields.inGroup fun _ _ => hg.types).bind fun hi inputs hinputs =>
      .skip fun arrow => ?_
    extract_lets -underBinder behind
    have hbehind : ∀ hi output, OrderlyParts all mid hi
        (inputs.map .type ++ (output.map Part.type).toList) →
          (behind output).Yields all e hi fun hi x =>
            x.elim (OrderlyPath all lo hi front) (OrderlyPath all lo hi front) := by
      intro hi output houtput
      have hargs := hp.withParenArguments (Bool.and_eq_true_iff.mp hbare).1 houtput
      dsimp -zeta only [behind]
      extract_lets -underBinder path continues
      split
      · exact hg.moreSegments.bind fun hi more hmore => .pure (hargs.moreSegments hmore)
      · exact .pure hargs
    split
    · exact ((hg.type false e hi).map (P := fun hi' output =>
        OrderlyParts all hi hi' (output.map Part.type).toList)).bind fun hi output houtput =>
          hbehind hi output (hinputs.append houtput)
    · refine hbehind hi none ?_
      exact hinputs.append (.nil (le_refl hi))
  · exact .pure hp

instance (self : Bool) : Skips (parameterName self) := by
  unfold parameterName
  infer_instance

instance : Skips abi? := by
  unfold abi?
  infer_instance

/-- A parameter of a function type is read in order, with its attributes **in front of its type**.
-/
theorem InOrder.functionTypeParameter (hg : g.InOrder all) (first : Bool) :
    (g.functionTypeParameter first).Yields all e lo fun hi parts =>
      OrderlyParts all lo hi parts := by
  refine hg.outerAttributes.bind fun mid a ha => .skip fun ts => ?_
  extract_lets -underBinder mutSelf type
  have htype : ∀ u, (type u).Yields all e mid fun hi parts => OrderlyParts all lo hi parts := by
    refine fun _ => .skip fun named => ?_
    split
    · exact .skip fun _ => .pure ha.parts
    · refine (hg.type true e mid).bind fun hi t ht => .pure (ha.parts.append ?_)
      split
      · exact .nil ht.le
      · exact ht
  split
  · exact .skip htype
  · exact htype ()

/-- So are all its parameters, **one behind the other**. -/
theorem InOrder.functionTypeParameters (hg : g.InOrder all) :
    g.functionTypeParameters.Yields all e lo fun hi parts => OrderlyParts all lo hi parts := by
  refine .iterate (fun mid x => OrderlyParts all lo mid x.2) (.nil (le_refl lo))
    fun mid x hdone => ?_
  obtain ⟨first, done⟩ := x
  refine .skip fun ended => ?_
  split
  · exact .pure hdone
  refine hg.outerAttributes.bind fun hi a ha => ?_
  have hdone : OrderlyParts all lo hi (done ++ a.parts) := hdone.append ha.parts
  dsimp only
  refine .skip fun dots => ?_
  split
  · refine .skip fun plain => ?_
    split
    · exact .skip fun _ => .pure hdone
    · exact .skip fun _ => .skip fun _ => .skip fun _ => .skip fun _ => .pure hdone
  · refine (hg.functionTypeParameter first).bind fun hi parts hparts => .skip fun last => ?_
    split
    · exact .pure (hdone.append hparts)
    · exact .skip fun _ => .pure (hdone.append hparts)

/-- A function type has its parameters **in front of what it returns**. -/
theorem InOrder.functionType (hg : g.InOrder all) :
    g.functionType.Yields all e lo fun hi parts => OrderlyParts all lo hi parts :=
  hg.binder?.bind fun _ _ hbinder => .skip fun _ => .skip fun _ => .skip fun _ =>
    (Yields.inGroup fun _ _ => hg.functionTypeParameters).bind fun _ _ hinputs =>
      (hg.returnType false).bind fun _ _ houtput =>
        .pure ((hbinder.append hinputs).append houtput)

/-- What stands in round brackets, as parts. -/
def Bracketed.parts : Bracketed → List Part
  | .type inner _ => [.type inner]
  | .tuple parts => parts
  | .maybe parts => parts

/-- The inside of round brackets is read in order **whichever form it has**. -/
theorem InOrder.bracketed (hg : g.InOrder all) :
    g.bracketed.Yields all e lo fun hi x => OrderlyParts all lo hi x.parts := by
  refine .skip fun ended => ?_
  split
  · exact .pure (.nil (le_refl lo))
  refine .skip fun lifetime => ?_
  split
  · exact hg.traitObject.bind fun hi t ht => .pure ht
  refine .skip fun maybe => ?_
  split
  · exact (hg.bound false false e lo).bind fun hi x hx => .pure hx
  refine .skip fun ts => (hg.type true e lo).bind fun mid t ht => .skip fun more => ?_
  split
  · exact hg.types.bind fun hi us hus => .pure (ht.append hus)
  · exact .pure ht

/-- A type of any form is read in order. -/
theorem InOrder.typeForm (hg : g.InOrder all) (plus : Bool) :
    (g.typeForm plus).Yields all e lo fun hi t => OrderlyParts all lo hi [.type t] := by
  refine hg.binder?.bind fun mid binder hbinder => .skip fun ts => ?_
  have hwrapped : ∀ plus, (do return .wrapped (← g.type plus) : Reader Ty).Yields all e mid
      fun hi t => OrderlyParts all lo hi [.type t] :=
    fun plus => (hg.type plus e mid).bind fun hi t ht =>
      .pure (orderlyParts_wrapped.mpr (ht.widen hbinder.le (le_refl hi)))
  have hempty : (Pure.pure (.other "" []) : Reader Ty).Yields all e mid
      fun hi t => OrderlyParts all lo hi [.type t] :=
    .pure (orderlyParts_other.mpr (.nil hbinder.le))
  dsimp only
  refine .ite .fails (.ite ?paren (.ite ?function (.ite ?path (.ite ?object (.ite ?bracket
    (.ite ?pointer (.ite ?reference (.ite ?never (.ite ?impl (.ite ?infer (.ite ?lifetime
      .fails)))))))))))
  case paren =>
    refine (Yields.inGroup fun _ _ => hg.bracketed).bind fun hi x hx => ?_
    have hx := hx.widen hbinder.le (le_refl hi)
    cases x with
    | tuple parts => exact .pure (orderlyParts_other.mpr hx)
    | «maybe» parts =>
        exact hg.moreBounds.bind fun hi more hmore =>
          .pure (orderlyParts_other.mpr (hx.append hmore))
    | type inner one =>
        refine .skip fun more => .ite (hg.moreBounds.bind fun hi more hmore => .pure ?_) ?_
        · refine orderlyParts_other.mpr (.cons ?_ hmore)
          split
          · exact orderlyParts_typePath.mp hx
          · exact hx
        · exact .pure (orderlyParts_wrapped.mpr hx)
  case function =>
    exact hg.functionType.bind fun hi parts hparts =>
      .pure (orderlyParts_other.mpr (hbinder.append hparts))
  case path =>
    refine hg.typePath.bind fun hi x hx => ?_
    obtain ⟨owner, p⟩ := x
    have hx := hx.parts
    cases owner with
    | some owner =>
        exact .pure (orderlyParts_other.mpr (hx.widen hbinder.le (le_refl hi)))
    | none =>
        refine .skip fun called => .ite (.skip fun _ => (hg.invocation p).bind fun last use huse =>
          .pure (orderlyParts_other.mpr (huse.widen (hbinder.le.trans hx.le) (le_refl last)))) ?_
        refine .skip fun more => .ite (.ite ?_ ?_) ?_
        · refine (Yields.collect (f := id) fun mid => .skip fun more => ?_).bind
            fun hi more hmore => .pure ?_
          · refine .ite (.skip fun bound => .ite ?_ ?_) ?_
            · exact (hg.bound false false e mid).bind fun hi x hx => .found hx
            all_goals exact .nothing
          · rw [List.flatMap_id] at hmore
            exact orderlyParts_other.mpr (hbinder.append (hx.append hmore))
        · exact .pure (orderlyParts_other.mpr (hbinder.append hx))
        · exact .pure (orderlyParts_typePath.mpr (hx.widen hbinder.le (le_refl hi)))
  case object =>
    refine .skip fun p => .skip fun _ => .skip fun star => (hg.objectBounds p plus).bind
      fun hi parts hparts => .pure (orderlyParts_other.mpr ?_)
    split
    · exact .nil (hbinder.le.trans hparts.le)
    · exact hparts.widen hbinder.le (le_refl hi)
  case bracket =>
    refine .group fun e o ho => (hg.type true e o).bind fun hi element helement =>
      .skip fun sized => ?_
    have helement := helement.widen (hbinder.le.trans ho) (le_refl hi)
    refine .ite (hg.expr.bind fun hi size hsize => .pure fun hle => ?_) (.pure fun hle => ?_)
    · exact orderlyParts_other.mpr ((helement.append hsize.part).widen (le_refl lo) hle)
    · exact orderlyParts_other.mpr (helement.widen (le_refl lo) hle)
  case pointer =>
    exact .skip fun _ => .skip fun _ => .ite (hwrapped false)
      (.skip fun _ => .ite (hwrapped false) .fails)
  case reference => exact .skip fun _ => .skip fun _ => .skip fun _ => hwrapped false
  case never => exact .skip fun _ => hempty
  case impl =>
    exact .skip fun p => .skip fun _ => (hg.bounds plus true true).bind fun hi x hx =>
      .ite (.pure (orderlyParts_other.mpr (hx.widen hbinder.le (le_refl hi)))) .fails
  case infer => exact .skip fun _ => hempty
  case lifetime =>
    exact hg.traitObject.mono fun hi t ht => ht.widen hbinder.le (le_refl hi)

/-- **Types are in order.** -/
theorem InOrder.typeRule (hg : g.InOrder all) (plus : Bool) :
    (g.typeRule plus).Yields all e lo fun hi t => OrderlyParts all lo hi [.type t] := by
  refine (hg.typeForm plus).withText.bind fun hi x hx => ?_
  split
  · exact .pure (orderlyParts_other.mpr (orderlyParts_other.mp hx))
  · exact .pure hx

/-! ### Generic parameters -/

/-- A generic parameter is read in order: attributes, bounds, **and then its default**. -/
theorem InOrder.genericParameter (hg : g.InOrder all) :
    g.genericParameter.Yields all e lo fun hi parts => OrderlyParts all lo hi parts := by
  refine hg.outerAttributes.bind fun mid a ha => .skip fun ts => ?_
  have hattributes : (Pure.pure a.parts : Reader (List Part)).Yields all e mid
      fun hi parts => OrderlyParts all lo hi parts := .pure ha.parts
  extract_lets -underBinder stop
  refine .ite ?lifetime (.ite ?type (.ite ?const (.ite (.skip fun _ => hattributes) .fails)))
  case lifetime =>
    exact .skip fun _ => .skip fun bounded => .ite (.skip fun _ => hattributes) hattributes
  case type =>
    refine .skip fun _ => .skip fun bounded => ?_
    extract_lets -underBinder behind
    have hbehind : ∀ hi bounds, OrderlyParts all mid hi bounds →
        (behind bounds).Yields all e hi fun hi parts => OrderlyParts all lo hi parts := by
      intro hi bounds hbounds
      have hbefore := ha.parts.append hbounds
      exact .skip fun valued => .ite
        ((hg.type true e hi).bind fun _ _ ht => .pure (hbefore.append ht))
        (.pure (hbefore.append (.nil (le_refl hi))))
    exact .ite ((hg.boundsUntil _).bind hbehind) (hbehind mid [] (.nil (le_refl mid)))
  case const =>
    exact .skip fun _ => .skip fun _ => .skip fun _ => (hg.type true e mid).bind fun hi t ht =>
      .skip fun valued => .ite
        (hg.constArgument.bind fun _ _ hx => .pure (ha.parts.append (ht.append hx.part)))
        (.pure (ha.parts.append ht))

/-- So is the list of them that an item has, **or does not have**. -/
theorem InOrder.generics (hg : g.InOrder all) :
    g.generics.Yields all e lo fun hi x => OrderlyParts all lo hi x.2 := by
  refine .skip fun there => .ite ?_ (.pure (.nil (le_refl lo)))
  refine (Yields.iterate (P := fun hi parts => OrderlyParts all lo hi parts)
    (fun mid done => OrderlyParts all lo mid done) (.nil (le_refl lo)) fun mid done hdone =>
      .skip fun ended => ?_).bind fun hi parts hparts => .skip fun _ => .pure hparts
  refine .ite (.pure hdone) ?_
  refine hg.genericParameter.bind fun hi parts hparts => .skip fun last => ?_
  exact .ite (.pure (hdone.append hparts)) (.skip fun _ => .pure (hdone.append hparts))

/-- One condition of an item is read in order: binder, type, **and then bounds**. -/
theorem InOrder.condition (hg : g.InOrder all) :
    g.condition.Yields all e lo fun hi parts => OrderlyParts all lo hi parts := by
  refine .skip fun ts => .ite ?_ ?_
  · exact .skip fun _ => .skip fun _ => .skip fun _ => .pure (.nil (le_refl lo))
  · exact hg.binder?.bind fun mid _ hbinder => (hg.type true e mid).bind fun _ _ ht =>
      .skip fun _ => (hg.boundsUntil _).bind fun _ _ hbounds =>
        .pure (hbinder.append (ht.append hbounds))

/-- The conditions of an item are in order **among themselves**, and where none stand there are
none. -/
theorem InOrder.orderly_whereClause (hg : g.InOrder all) :
    g.whereClause.Yields all e lo fun hi x =>
      OrderlyParts all lo hi x.2 ∧ (x.1 = false → x.2 = []) := by
  refine .skip fun there => .ite ?_ (.pure ⟨.nil (le_refl lo), fun _ => rfl⟩)
  refine (Yields.iterate (P := fun hi parts => OrderlyParts all lo hi parts)
    (fun mid done => OrderlyParts all lo mid done) (.nil (le_refl lo)) fun mid done hdone =>
      .skip fun ended => ?_).bind fun hi parts hparts => .pure ⟨hparts, fun h => nomatch h⟩
  refine .ite (.pure hdone) ?_
  refine hg.condition.bind fun hi parts hparts => .skip fun more => ?_
  exact .ite (.pure (hdone.append hparts)) (.pure (hdone.append hparts))

/-- Conditions that are read in front of a token are **a clause that is walked too early**, from
`where` up to the token. -/
theorem InOrder.whereClause (hg : g.InOrder all) :
    g.whereClause.YieldsBefore all e lo fun hi x =>
      LateParts all lo hi x.2 ∧ (x.1 = false → x.2 = []) := by
  intro i x j hleft hread hmore
  obtain ⟨there, parts⟩ := x
  cases there with
  | false =>
      obtain ⟨hi, hbehind, horderly, hnone⟩ := hg.orderly_whereClause i _ j hleft hread
      obtain rfl := hnone rfl
      exact ⟨hi, hbehind, .nil horderly.le, fun _ => rfl⟩
  | true =>
      have hne : i.rest ≠ [] := by
        intro hempty
        obtain ⟨there, k, hkeyword, hbehind⟩ := bind_eq_ok.mp hread
        rw [keyword?, hempty] at hkeyword
        cases hkeyword
        cases hbehind
      obtain ⟨t, rest, hrest⟩ := List.exists_cons_of_ne_nil hne
      obtain ⟨hlo, hlaid⟩ : lo ≤ t.position ∧ Laid t.position i.rest e :=
        hrest ▸ (hrest ▸ hleft.laid).head
      obtain ⟨hi, hbehind, horderly, -⟩ :=
        hg.orderly_whereClause i _ j ⟨hlaid, hleft.among⟩ hread
      obtain ⟨u, behind, hnext⟩ := List.exists_cons_of_ne_nil hmore
      obtain ⟨hu, hlaid⟩ : hi ≤ u.position ∧ Laid u.position j.rest e :=
        hnext ▸ (hnext ▸ hbehind.laid).head
      obtain ⟨depth, rfl⟩ := hg.depth
      exact ⟨u.position, ⟨hlaid, hbehind.among⟩, .of_clause
        (.conditions hleft.among hrest hread hnext) hlo (horderly.widen (le_refl _) hu), nofun⟩

/-- Conditions take nothing where nothing is left. -/
instance {β : Type} {f : Bool × List Part → Reader β} [hf : ∀ x, Hungry (f x)] :
    Hungry (g.whereClause >>= f) where
  fails i x hempty h := by
    obtain ⟨conditions, k, hfirst, hsecond⟩ := bind_eq_ok.mp h
    obtain ⟨there, l, hkeyword, hbehind⟩ := bind_eq_ok.mp hfirst
    rw [keyword?, hempty] at hkeyword
    cases hkeyword
    cases hbehind
    exact (hf _).fails i x hempty hsecond

end CapabilityGate.Program.Grammar
