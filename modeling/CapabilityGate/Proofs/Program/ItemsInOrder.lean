import CapabilityGate.Proofs.Program.ExpressionsInOrder

/-!
# Items in the order of the text

The rules for statements and items yield constructs whose mentions follow one another, if the
readers that they need do. The conditions of an item and the inner attributes of its body come in
front of what is written before them, and both are late clauses. So the grammar of every depth keeps
to the order of the text.

## Main results

* `Grammar.InOrder.statementsRule`: the statements of a block.
* `Grammar.InOrder.itemRule`: items.
* `Grammar.inOrder_ofDepth`: the whole grammar.
* `SourceFile.orderly_mentions`: the mentions of a source file.
-/

namespace CapabilityGate.Program.Grammar

open Reader

variable {all : List Token} {g : Grammar} {e lo mid hi : Position}

/-! ### Visibility and signatures -/

instance : Skips visibility where
  skips all e lo := by
    refine .skip fun visible => .ite (.skip fun ts => ?_) (.pure rfl)
    split
    · exact .ite (.ite (.skip fun _ => .pure rfl) (.pure rfl))
        (.ite (.skip fun _ => .pure rfl) (.pure rfl))
    · exact .pure rfl

/-- The parameter `self` is read in order, **with a type or without**. -/
theorem InOrder.receiver (hg : g.InOrder all) :
    g.receiver.Yields all e lo fun hi parts => OrderlyParts all lo hi parts := by
  refine .skip fun byReference => ?_
  extract_lets -underBinder behind
  have hnone : (Pure.pure [] : Reader (List Part)).Yields all e lo fun hi parts =>
      OrderlyParts all lo hi parts := .pure (.nil (le_refl lo))
  have hbehind : ∀ u, (behind u).Yields all e lo fun hi parts => OrderlyParts all lo hi parts :=
    fun _ => .skip fun _ => .skip fun _ => .ite hnone (.skip fun typed => .ite
      ((hg.type true e lo).bind fun _ _ ht => .pure ht) hnone)
  exact .ite (.skip hbehind) (hbehind ())

/-- The conditions of a construct are in order **in front of all that is read before them**. -/
theorem InOrder.conditions (hg : g.InOrder all) {parts : List Part}
    (hparts : OrderlyParts all lo mid parts) :
    g.whereClause.YieldsBefore all e mid fun hi x => OrderlyHeader all lo hi (x.2 ++ parts) :=
  hg.whereClause.mono fun _ _ hx => hx.1.append hparts.header

/-- The parameters of a function are read in order, **one behind the other**. -/
theorem InOrder.parameters (hg : g.InOrder all) :
    g.parameters.Yields all e lo fun hi parts => OrderlyParts all lo hi parts := by
  refine .iterate (fun mid state => OrderlyParts all lo mid state.2) (.nil (le_refl lo))
    fun mid state hdone => ?_
  obtain ⟨count, done⟩ := state
  refine .skip fun ended => .ite (.pure hdone) (hg.outerAttributes.bind fun hi a ha =>
    .skip fun dots => ?_)
  have hattributes := hdone.append ha.parts
  -- what follows a parameter
  have hend : ∀ hi parts, OrderlyParts all lo hi parts → (do
      if ← isEmpty then return .inr parts
      mark ","
      return .inl (count + 1, parts) : Reader ((Nat × List Part) ⊕ List Part)).Yields all e hi
        fun hi x => x.elim (fun state => OrderlyParts all lo hi state.2) (OrderlyParts all lo hi) :=
    fun hi parts hparts => .skip fun last => .ite (.pure hparts) (.skip fun _ => .pure hparts)
  have hdots : ∀ hi parts, OrderlyParts all lo hi parts → (do
      unless ← isEmpty do mark ","
      return .inr parts : Reader ((Nat × List Part) ⊕ List Part)).Yields all e hi
        fun hi x => x.elim (fun state => OrderlyParts all lo hi state.2) (OrderlyParts all lo hi) :=
    fun hi parts hparts => .skip fun last => .ite (.pure hparts) (.skip fun _ => .pure hparts)
  refine .ite (hdots hi _ hattributes) (.skip fun start =>
    (Yields.attempt hg.receiver).bind fun last x hx => ?_)
  obtain ⟨parts, rfl, hparts⟩ | ⟨rfl, rfl⟩ := hx
  · have hself := hend last _ (hattributes.append hparts)
    exact .ite (.skip fun _ => hself) hself
  · refine .ite ?_ ?_
    · have hunnamed : OrderlyParts all last last [.pattern (.compound [])] :=
        orderlyParts_compoundPattern.mpr (.nil (le_refl last))
      exact (hg.type true e last).bind fun hi t ht =>
        hend hi _ (hdone.append (.typed (ha.parts.append (hunnamed.append ht))))
    · refine (hg.pattern e last).bind fun next p hp => .skip fun _ => .skip fun dots =>
        .ite (hdots next _ (hattributes.append hp)) ?_
      exact (hg.type true e next).bind fun hi t ht =>
        hend hi _ (hdone.append (.typed (ha.parts.append (hp.append ht))))

/-- The signature of a function is in order as a header, in front of its body or what ends it. -/
theorem InOrder.signature (hg : g.InOrder all) (safe : Bool) :
    (g.signature safe).YieldsBefore all e lo fun hi x => OrderlyHeader all lo hi x.2.2 := by
  refine .skip fun _ => .skip fun _ => .skip fun isUnsafe => ?_
  extract_lets -underBinder behind
  have hbehind : ∀ isSafe, (behind isSafe).YieldsBefore all e lo fun hi x =>
      OrderlyHeader all lo hi x.2.2 := by
    refine fun isSafe => .skip fun _ => .skip fun _ => .skip fun name =>
      .bind hg.generics fun start x hgenerics => .bind (Yields.inGroup (f := id) fun _ _ =>
        hg.parameters) fun mid inputs hinputs => .bind (hg.returnType true)
          fun last output houtput => .put ((hg.conditions (hinputs.append houtput)).mono ?_)
    intro hi x hx
    rw [← List.append_assoc] at hx
    have hall := hgenerics.header.append hx
    rw [← List.append_assoc, ← List.append_assoc] at hall
    exact hall
  exact .ite (.skip hbehind) (hbehind false)

/-! ### Statements -/

/-- A `let` statement is in order with the attributes in front of it: pattern, type, value, **and
then the alternative**. -/
theorem InOrder.binding (hg : g.InOrder all) {attributes : List Part}
    (hattributes : OrderlyParts all lo mid attributes) :
    (g.binding attributes).Yields all e mid fun hi part => OrderlyParts all lo hi [part] := by
  refine .skip fun _ => (hg.typedPattern (.nil (le_refl mid))).bind fun next p hp =>
    .skip fun valued => ?_
  extract_lets -underBinder behind
  have hbehind : ∀ hi values, OrderlyParts all next hi (List.map Part.expr values) →
      (behind values).Yields all e hi fun hi part => OrderlyParts all lo hi [part] :=
    fun hi values hvalues => .skip fun _ => .pure (.binding (hattributes.append
      (hp.append hvalues)))
  refine .ite ((Yields.withBrace hg.expr).bind fun last x hx => ?_)
    (hbehind next [] (.nil (le_refl next)))
  obtain ⟨value, braced⟩ := x
  refine .skip fun otherwise => .ite ?_ (hbehind last [value] hx.part)
  exact hg.plainBlock.bind fun hi block hblock =>
    hbehind hi [value, _] (hx.part.append (orderlyParts_compound.mpr hblock))

instance : Skips macroStatement where
  skips all e lo i x j hleft hread := by
    rw [macroStatement] at hread
    split at hread
    next =>
      cases hread
      exact ⟨lo, hleft, rfl⟩
    next name k hname =>
      obtain ⟨hi, hrest, rfl⟩ := Skips.skips all e lo i _ k hleft hname
      refine ⟨hi, ?_, rfl⟩
      dsimp only at hread
      split_ifs at hread <;> (cases hread; assumption)

/-- A statement of any form is read in order. -/
theorem InOrder.statement (hg : g.InOrder all) :
    g.statement.Yields all e lo fun hi x => OrderlyParts all lo hi [x.1] := by
  refine .ahead fun start hstart => hg.outerAttributes.bind fun mid a ha => ?_
  extract_lets -underBinder withParts
  have hwith : ∀ hi part, OrderlyParts all mid hi [part] →
      OrderlyParts all lo hi [withParts part] := by
    intro hi part hpart
    dsimp only [withParts]
    split
    · exact hpart.widen ha.parts.le (le_refl hi)
    · exact orderlyParts_group.mpr (ha.parts.append hpart)
  refine .skip fun kind => .skip fun ts => ?_
  cases kind with
  | statement name =>
      exact .skip fun _ => (hg.invocation name).bind fun hi use huse => .skip fun _ =>
        .pure (hwith hi _ huse)
  | _ =>
      refine .ite ((hg.binding ha.parts).bind fun _ _ h => .pure h) (.ite ?_ ?_)
      · exact (Yields.again (hg.item e lo) hstart).bind fun _ _ h => .pure h
      · exact (hg.early e mid).bind fun hi x hx => .skip fun ended =>
          .pure (ha.withStatementAttributes hx).part

/-- So are all statements of a block, **one behind the other**. -/
theorem InOrder.statementsRule (hg : g.InOrder all) :
    g.statementsRule.Yields all e lo fun hi parts => OrderlyParts all lo hi parts := by
  refine .iterate (fun mid done => OrderlyParts all lo mid done.reverse) (.nil (le_refl lo))
    fun mid done hdone => .skip fun ended => .ite (.pure hdone)
      (.skip fun _ => .ite (.pure hdone) ?_)
  refine hg.statement.bind fun hi x hx => ?_
  obtain ⟨part, open_⟩ := x
  have hdone : OrderlyParts all lo hi (part :: done).reverse := by
    rw [List.reverse_cons]
    exact hdone.append hx
  exact .skip fun _ => .ite (.pure hdone) (.ite .fails (.pure hdone))

/-! ### Imports -/

/-- What an import names **has no places**. -/
theorem InOrder.useTreeRule (hg : g.InOrder all) (global : Bool) :
    Skips (g.useTreeRule global) := by
  have := hg.useTree
  have hname : ∀ name : Word, Skips (do
      if ← mark? "::" then
        return (← g.useTree false).map (.under name)
      else if ← keyword? "as" then
        let ts ← ahead
        if atIdent ts || atName "_" ts then return some (.rename name (← word))
        fail "expected identifier or underscore"
      else
        return some (.name name) : Reader (Option UseTree)) :=
    fun name => inferInstance
  unfold Grammar.useTreeRule
  infer_instance

/-- An import is in order **as its attributes** are. -/
theorem InOrder.useItem (hg : g.InOrder all) {attributes : List Part}
    (hattributes : OrderlyParts all lo mid attributes) :
    (g.useItem attributes).Yields all e mid fun hi item => OrderlyParts all lo hi [.item item] := by
  have := hg.useTree
  refine .skip fun _ => .skip fun global => .skip fun tree => .skip fun _ => ?_
  cases tree with
  | some tree => exact .pure hattributes.header.item
  | none => exact .pure (OrderlyParts.nil hattributes.le).header.item

/-! ### Types and values -/

/-- A field has its attributes **in front of its type**. -/
theorem InOrder.namedField (hg : g.InOrder all) :
    g.namedField.Yields all e lo fun hi part => OrderlyParts all lo hi [part] := by
  refine hg.outerAttributes.bind fun mid a ha => .skip fun _ => .skip fun unnamed => ?_
  extract_lets -underBinder behind
  have hbehind : ∀ u, (behind u).Yields all e mid fun hi part => OrderlyParts all lo hi [part] := by
    refine fun _ => .skip fun _ => .skip fun ts => .ite (.skip fun _ => .skip fun _ => ?_) ?_
    · exact .pure (orderlyParts_group.mpr ha.parts)
    · exact (hg.type true e mid).bind fun hi t ht =>
        .pure (orderlyParts_group.mpr (ha.parts.append ht))
  exact .ite (.skip hbehind) (.skip hbehind)

/-- Parts between commas that a group holds. -/
theorem partsInGroup {d : Delimiter} {r : Reader Part}
    (h : ∀ e lo, r.Yields all e lo fun hi part => OrderlyParts all lo hi [part]) :
    (group d (terminated r)).Yields all e lo fun hi parts => OrderlyParts all lo hi parts := by
  refine Yields.inGroup (f := id) fun e _ =>
    (Yields.terminated (f := fun part => [part]) fun mid => h e mid).mono fun hi parts h => ?_
  rwa [List.flatMap_singleton'] at h

/-- The fields between braces are read in order. -/
theorem InOrder.namedFields (hg : g.InOrder all) :
    g.namedFields.Yields all e lo fun hi parts => OrderlyParts all lo hi parts :=
  partsInGroup fun _ _ => hg.namedField

/-- So are those between round brackets. -/
theorem InOrder.unnamedFields (hg : g.InOrder all) :
    g.unnamedFields.Yields all e lo fun hi parts => OrderlyParts all lo hi parts :=
  partsInGroup fun e _ => hg.outerAttributes.bind fun mid _ ha => .skip fun _ =>
    (hg.type true e mid).bind fun _ _ ht => .pure (orderlyParts_group.mpr (ha.parts.append ht))

/-- The body of a structure is in order as a header: its conditions may stand **behind its fields**,
and are walked before them. -/
theorem InOrder.structBody (hg : g.InOrder all) :
    g.structBody.Yields all e lo fun hi parts => OrderlyHeader all lo hi parts := by
  refine hg.orderly_whereClause.bind fun mid x hx => ?_
  obtain ⟨there, conditions⟩ := x
  have hconditions := hx.1
  refine .skip fun ts => .ite ?_ (.ite ?_ (.skip fun _ => .ite (.pure hconditions.header) .fails))
  · refine hg.unnamedFields.bind fun next fields hfields =>
      (hg.conditions (hfields.widen hconditions.le (le_refl next))).before fun hi x hx => ?_
    exact .skip fun _ => .pure hx
  · exact hg.namedFields.bind fun _ _ hfields => .pure (hconditions.append hfields).header

/-- A variant has its fields **in front of its value**. -/
theorem InOrder.variant (hg : g.InOrder all) :
    g.variant.Yields all e lo fun hi part => OrderlyParts all lo hi [part] := by
  refine hg.outerAttributes.bind fun mid a ha => .skip fun _ => .skip fun _ => .skip fun ts => ?_
  extract_lets -underBinder behind
  have hbehind : ∀ next fields, OrderlyParts all mid next fields →
      (behind fields).Yields all e next fun hi part => OrderlyParts all lo hi [part] := by
    intro next fields hfields
    have hbefore := ha.parts.append hfields
    refine .skip fun valued => .ite ?_ (.pure (orderlyParts_group.mpr ?_))
    · exact hg.expr.bind fun hi x hx => .pure (orderlyParts_group.mpr (hbefore.append hx.part))
    · rwa [List.append_nil]
  exact .ite (hg.namedFields.bind hbehind) (.ite (hg.unnamedFields.bind hbehind)
    (hbehind mid [] (.nil (le_refl mid))))

/-- Conditions are in order in front of all that is read before them, **whether they stand before
the last parts or behind them**. -/
theorem orderlyHeader_conditions {next last : Position} {parts types conditions more : List Part}
    (hparts : OrderlyParts all lo mid parts) (hconditions : LateParts all mid next conditions)
    (htypes : OrderlyParts all next last types) (hmore : LateParts all last hi more)
    (honce : conditions = [] ∨ more = []) :
    OrderlyHeader all lo hi (conditions ++ more ++ parts ++ types) := by
  obtain rfl | rfl := honce
  · have hbefore := hparts.append (htypes.widen hconditions.orderly.le (le_refl last))
    rw [List.nil_append, List.append_assoc]
    exact hmore.append hbefore.header
  · rw [List.append_nil]
    exact (hconditions.append hparts.header).append
      (htypes.widen (le_refl next) hmore.orderly.le).header

/-- A type behind its name is in order, **with all that is read of the item before**. -/
theorem InOrder.namedTypeEnd (hg : g.InOrder all) {name : Word} {has after hasBounds : Bool}
    {generics conditions bounds : List Part} {start next last : Position}
    (hgenerics : OrderlyParts all lo start generics) (hbounds : OrderlyParts all start next bounds)
    (hconditions : LateParts all next last conditions) (hnone : has = false → conditions = []) :
    (do
      let type ← if ← mark? "=" then some <$> g.type true else pure none
      let (_, more) ← if after && !has then g.whereClause else pure (false, [])
      mark ";"
      return (name, if hasBounds then none else type, generics ++ conditions ++ more ++ bounds) :
        Reader (Word × Option Ty × List Part)).Yields all e last fun hi x =>
          OrderlyHeader all lo hi (x.2.2 ++ (x.2.1.map Part.type).toList) := by
  refine .skip fun typed => ?_
  extract_lets -underBinder ended
  have hended : ∀ hi type, OrderlyParts all last hi (type.map Part.type).toList →
      (ended type).Yields all e hi fun hi x =>
        OrderlyHeader all lo hi (x.2.2 ++ (x.2.1.map Part.type).toList) := by
    intro at_ type htype
    dsimp -zeta only [ended]
    extract_lets -underBinder closed
    have hclosed : ∀ hi more, LateParts all at_ hi more.2 → conditions = [] ∨ more.2 = [] →
        (closed more).Yields all e hi fun hi x =>
          OrderlyHeader all lo hi (x.2.2 ++ (x.2.1.map Part.type).toList) := by
      intro hi more hmore honce
      have hall : ∀ types, OrderlyParts all last at_ types →
          OrderlyHeader all lo hi (generics ++ conditions ++ more.2 ++ bounds ++ types) := by
        intro types htypes
        have hheader := hgenerics.header.append
          (orderlyHeader_conditions hbounds hconditions htypes hmore honce)
        simpa only [← List.append_assoc] using hheader
      refine .skip fun _ => .pure ?_
      dsimp only
      split
      · exact hall [] (.nil htype.le)
      · exact hall _ htype
    split
    next hafter =>
      have hhas : has = false := by simpa using (Bool.and_eq_true_iff.mp hafter).2
      exact hg.whereClause.before fun hi more hmore => hclosed hi more hmore.1 (.inl (hnone hhas))
    next => exact hclosed at_ (false, []) (.nil (le_refl at_)) (.inr rfl)
  exact .ite ((Yields.map (P := fun hi type =>
      OrderlyParts all last hi (Option.map Part.type type).toList)
    (hg.type true e last)).bind hended) (hended last none (.nil (le_refl last)))

/-- A name for a type is in order as a header, **wherever its conditions stand**. -/
theorem InOrder.namedType (hg : g.InOrder all) (before after : Bool) :
    (g.namedType before after).Yields all e lo fun hi x =>
      OrderlyHeader all lo hi (x.2.2 ++ (x.2.1.map Part.type).toList) := by
  refine .skip fun _ => .skip fun name => hg.generics.bind fun mid x hgenerics =>
    .skip fun hasBounds => ?_
  extract_lets -underBinder bounded
  have hbounded : ∀ next bounds, OrderlyParts all mid next bounds →
      (bounded bounds).Yields all e next fun hi x =>
        OrderlyHeader all lo hi (x.2.2 ++ (x.2.1.map Part.type).toList) :=
    fun next bounds hbounds => .ite
      (hg.whereClause.before fun last conditions hconditions =>
        hg.namedTypeEnd hgenerics hbounds hconditions.1 hconditions.2)
      (hg.namedTypeEnd hgenerics hbounds (.nil (le_refl next)) fun _ => rfl)
  exact .ite ((hg.boundsUntil _).bind hbounded) (hbounded mid [] (.nil (le_refl mid)))

/-- A constant is in order as a header: its conditions stand **behind its value**. -/
theorem InOrder.constant (hg : g.InOrder all) :
    g.constant.Yields all e lo fun hi x => OrderlyHeader all lo hi x.2.2.2 := by
  refine .skip fun _ => .skip fun ts => ?_
  extract_lets -underBinder behind
  have hbehind : ∀ u, (behind u).Yields all e lo fun hi x => OrderlyHeader all lo hi x.2.2.2 := by
    refine fun _ => .skip fun name => hg.generics.bind fun mid x hgenerics => .skip fun _ =>
      (hg.type true e mid).bind fun next t ht => .skip fun valued => ?_
    extract_lets -underBinder ended
    have hended : ∀ last value, OrderlyParts all next last value →
        (ended value).Yields all e last fun hi x => OrderlyHeader all lo hi x.2.2.2 := by
      intro last value hvalue
      refine (hg.conditions (ht.append hvalue)).before fun hi x hx => .skip fun _ => .pure ?_
      have hall := hgenerics.header.append hx
      rwa [← List.append_assoc] at hall
    exact .ite (hg.expr.bind fun last x hx => hended last [.expr x] hx.part)
      (hended next [] (.nil (le_refl next)))
  exact .ite (hbehind ()) (.skip hbehind)

/-- A macro that makes an item is read in order, **named or not**. -/
theorem InOrder.macroItem (hg : g.InOrder all) (named : Bool) :
    (g.macroItem named).Yields all e lo fun hi parts => OrderlyParts all lo hi parts := by
  refine .skip fun path => .skip fun _ => ?_
  extract_lets -underBinder behind
  have hbehind : ∀ u, (behind u).Yields all e lo fun hi parts => OrderlyParts all lo hi parts :=
    fun _ => (hg.invocation path).bind fun hi use huse => .ite (.pure huse) (.skip fun _ =>
      .pure huse)
  exact .ite (.skip fun _ => .ite (.skip hbehind) (.skip fun _ => .ite (.skip hbehind)
    (hbehind ()))) (hbehind ())

/-! ### Members -/

/-- The inner attributes of a body are in order **in front of all that is read before the body**,
and the rest of the body behind it. -/
theorem InOrder.braced (hg : g.InOrder all) {α : Type} {r : Reader α} {f : α → List Part}
    {before : List Part} (hbefore : OrderlyHeader all lo mid before)
    (hr : ∀ e lo, r.Yields all e lo fun hi a => OrderlyParts all lo hi (f a)) :
    (group .brace do
      let inner ← g.innerAttributes
      let a ← r
      return (inner, f a)).Yields all e mid fun hi x =>
        OrderlyHeader all lo hi (x.1 ++ before ++ x.2) :=
  .group fun e _ ho => hg.innerAttributes.bind fun next _ hinner => (hr e next).bind fun _ _ ha =>
    .pure fun hle => ((hinner.behind ho).append hbefore).append
      (ha.widen (le_refl next) hle).header

instance {member : Reader Item} : Hungry (g.members member) := by
  unfold members
  infer_instance

/-- An item without parts is in order. -/
theorem orderlyParts_nothing (h : lo ≤ hi) : OrderlyParts all lo hi [.item (.other [])] :=
  (OrderlyParts.nil h).header.item

/-- A member of a trait is an item in order. -/
theorem InOrder.traitMember (hg : g.InOrder all) :
    g.traitMember.Yields all e lo fun hi item => OrderlyParts all lo hi [.item item] := by
  refine hg.outerAttributes.bind fun mid a ha => .skip fun visible => .skip fun default_ =>
    .skip fun ts => ?_
  extract_lets -underBinder behind
  have hbehind : ∀ hi parts, (mid ≤ hi ∧ ∀ ps ∈ parts, OrderlyHeader all mid hi ps) →
      (behind parts).Yields all e hi fun hi item => OrderlyParts all lo hi [.item item] := by
    intro hi parts ⟨hle, hparts⟩
    have hnothing : OrderlyParts all lo hi [.item (.other [])] :=
      orderlyParts_nothing (ha.parts.le.trans hle)
    refine .ite (.pure hnothing) ?_
    cases parts with
    | some parts => exact .pure (ha.parts.header.append (hparts parts rfl)).item
    | none => exact .pure hnothing
  have hsome : ∀ hi parts, OrderlyHeader all mid hi parts →
      mid ≤ hi ∧ ∀ ps ∈ some parts, OrderlyHeader all mid hi ps :=
    fun hi parts hparts => ⟨hparts.le, fun _ hps => Option.some_inj.mp hps ▸ hparts⟩
  refine .ite ?_ (.ite ?_ (.ite ?_ (.ite ?_ .fails)))
  · refine (hg.signature false).before fun next x hx => .skip fun _ => .ite ?_ ?_
    · exact (hg.braced (f := id) hx hg.statements).bind fun hi x hx =>
        hbehind hi _ (hsome hi _ hx)
    · exact .skip fun _ => hbehind next _ (hsome next _ hx)
  · refine hg.constant.bind fun hi x hx => hbehind hi _ ⟨hx.le, fun ps hps => ?_⟩
    split at hps
    · exact (hsome hi _ hx).2 ps hps
    · exact nomatch hps
  · exact (hg.namedType false true).bind fun hi x hx => hbehind hi _ (hsome hi _ hx)
  · exact (Yields.map (P := fun hi parts => mid ≤ hi ∧ ∀ ps ∈ parts, OrderlyHeader all mid hi ps)
      ((hg.macroItem false).mono fun hi parts hparts => hsome hi parts hparts.header)).bind hbehind

/-- So is a member of an implementation. -/
theorem InOrder.implMember (hg : g.InOrder all) :
    g.implMember.Yields all e lo fun hi item => OrderlyParts all lo hi [.item item] := by
  refine hg.outerAttributes.bind fun mid a ha => .skip fun visible => .skip fun ts => ?_
  extract_lets -underBinder default_ behind
  have hnothing : ∀ hi, mid ≤ hi → (Pure.pure (.other []) : Reader Item).Yields all e hi
      fun hi item => OrderlyParts all lo hi [.item item] :=
    fun hi hle => .pure (orderlyParts_nothing (ha.parts.le.trans hle))
  have hother : ∀ {hi parts}, OrderlyHeader all mid hi parts →
      (Pure.pure (.other (a.parts ++ parts)) : Reader Item).Yields all e hi
        fun hi item => OrderlyParts all lo hi [.item item] :=
    fun hparts => .pure (ha.parts.header.append hparts).item
  have hbehind : ∀ u, (behind u).Yields all e mid fun hi item =>
      OrderlyParts all lo hi [.item item] := by
    refine fun _ => .skip fun ts => .ite ?_ (.ite ?_ (.ite ?_ (.ite ?_ .fails)))
    · refine (hg.signature false).before fun next x hx => .skip fun _ =>
        .ite (hnothing next hx.le) ?_
      refine (hg.braced (f := id) hx hg.statements).bind fun hi x hx => ?_
      have hmember := hother hx
      simp only [← List.append_assoc] at hmember
      exact hmember
    · refine hg.constant.bind fun hi x hx => .pure (OrderlyHeader.item ?_)
      dsimp only [Item.parts]
      split
      · exact ha.parts.header.append hx
      · exact (OrderlyParts.nil (ha.parts.le.trans hx.le)).header
    · refine (hg.namedType false true).bind fun hi x hx => ?_
      obtain ⟨name, type, parts⟩ := x
      cases type with
      | some t =>
          have hmember := hother hx
          rw [← List.append_assoc] at hmember
          exact hmember
      | none => exact hnothing hi hx.le
    · exact (hg.macroItem false).bind fun _ _ h => hother h.header
  exact .ite (.skip hbehind) (hbehind ())

/-- So is a member of a foreign block. -/
theorem InOrder.foreignMember (hg : g.InOrder all) :
    g.foreignMember.Yields all e lo fun hi item => OrderlyParts all lo hi [.item item] := by
  refine hg.outerAttributes.bind fun mid a ha => .skip fun visible => .skip fun ts => ?_
  have hnothing : ∀ hi, mid ≤ hi → OrderlyParts all lo hi [.item (.other [])] :=
    fun hi hle => orderlyParts_nothing (ha.parts.le.trans hle)
  have hother : ∀ {hi parts}, OrderlyHeader all mid hi parts →
      OrderlyParts all lo hi [.item (.other (a.parts ++ parts))] :=
    fun hparts => (ha.parts.header.append hparts).item
  have hunless : ∀ {hi parts} (c : Prop) [Decidable c], OrderlyHeader all mid hi parts →
      OrderlyParts all lo hi [.item (.other (if c then [] else a.parts ++ parts))] := by
    intro hi parts c _ hparts
    split
    · exact hnothing hi hparts.le
    · exact hother hparts
  refine .ite ?_ (.ite ?_ (.ite ?_ (.ite ?_ .fails)))
  · refine (hg.signature true).before fun next x hx => .skip fun _ => .ite ?_ (.skip fun _ =>
      .pure (hunless _ hx))
    have hbody : (group .brace do
        discard g.outerAttributes
        g.statements).Yields all e next fun hi _ => next ≤ hi :=
      .group fun e o ho => (Yields.discarded (hg.outerAttributes.mono fun _ _ h => h.parts.le)).bind
        fun inside _ hle => (hg.statements e inside).mono fun _ _ h hclose =>
          ((ho.trans hle).trans h.le).trans hclose
    exact (Yields.discarded hbody).bind fun hi _ hle => .pure (hnothing hi (hx.le.trans hle))
  · refine .skip fun isUnsafe => ?_
    extract_lets -underBinder behind
    have hbehind : ∀ isSafe, (behind isSafe).Yields all e mid fun hi item =>
        OrderlyParts all lo hi [.item item] := by
      refine fun _ => .skip fun _ => .skip fun _ => .skip fun _ => .skip fun _ =>
        (hg.type true e mid).bind fun next t ht => .skip fun valued => .ite ?_ ?_
      · exact (Yields.discarded (hg.expr.mono fun _ _ hx => hx.le)).bind fun hi _ hle =>
          .skip fun _ => .pure (hunless _ (ht.widen (le_refl mid) hle).header)
      · exact .skip fun _ => .pure (hunless _ ht.header)
    exact .ite (hbehind false) (.skip hbehind)
  · refine (hg.namedType true true).bind fun hi x hx => .pure ?_
    obtain ⟨name, type, parts⟩ := x
    cases type with
    | some t => exact hnothing hi hx.le
    | none =>
        rw [Option.map_none, Option.toList_none, List.append_nil] at hx
        exact hother hx
  · exact (hg.macroItem false).bind fun _ _ h => .pure (hother h.header)

/-! ### Items -/

/-- The members of an item stand behind what the item starts with. The attributes of their block are
**late clauses**: they are walked before all of it. -/
theorem InOrder.members (hg : g.InOrder all) {member : Reader Item} {before : List Part}
    (hbefore : OrderlyHeader all lo mid before)
    (hmember : ∀ e lo, member.Yields all e lo fun hi item => OrderlyParts all lo hi [.item item]) :
    (g.members member).Yields all e mid fun hi x =>
      OrderlyHeader all lo hi (x.1 ++ before ++ x.2) := by
  refine hg.braced (f := List.map Part.item) hbefore fun e lo => ?_
  simp only [List.map_eq_flatMap]
  exact .untilEmpty fun mid => hmember e mid

/-- A function is an item in order **with the attributes in front of it**. -/
theorem InOrder.functionItem (hg : g.InOrder all) {attributes : List Part}
    (hattributes : OrderlyParts all lo mid attributes) :
    (g.functionItem attributes).Yields all e mid fun hi item =>
      OrderlyParts all lo hi [.item item] := by
  refine (hg.signature false).before fun next x hx => .skip fun _ => .ite
    (.pure (orderlyParts_nothing (hattributes.le.trans hx.le))) ?_
  refine (hg.braced (f := id) hx hg.statements).bind fun hi x hx => .pure ?_
  have hall := hattributes.header.append hx
  simp only [← List.append_assoc] at hall
  exact hall.item

/-- So is a static value. -/
theorem InOrder.staticItem (hg : g.InOrder all) {attributes : List Part}
    (hattributes : OrderlyParts all lo mid attributes) :
    (g.staticItem attributes).Yields all e mid fun hi item =>
      OrderlyParts all lo hi [.item item] := by
  refine .skip fun _ => .skip fun _ => .skip fun name => .skip fun untyped =>
    .ite ?_ (.skip fun _ => ?_)
  · exact (Yields.discarded (hg.expr.mono fun _ _ hx => hx.le)).bind fun hi _ hle => .skip fun _ =>
      .pure (orderlyParts_nothing (hattributes.le.trans hle))
  · refine (hg.type true e mid).bind fun next t ht => .skip fun _ => .ite
      (.pure (orderlyParts_nothing (hattributes.le.trans ht.le))) (.skip fun _ => ?_)
    exact hg.expr.bind fun _ _ hx => .skip fun _ =>
      .pure (hattributes.append (ht.append hx.part)).header.item

/-- So is a module, **with a body or without**. -/
theorem InOrder.moduleItem (hg : g.InOrder all) {attributes : List Part}
    (hattributes : OrderlyParts all lo mid attributes) :
    (g.moduleItem attributes).Yields all e mid fun hi item =>
      OrderlyParts all lo hi [.item item] := by
  refine .skip fun _ => .skip fun _ => .skip fun _ => ?_
  extract_lets -underBinder behind
  have hbehind : ∀ name, (behind name).Yields all e mid fun hi item =>
      OrderlyParts all lo hi [.item item] := by
    refine fun name => .skip fun _ => .ite (.pure hattributes.header.item) (.skip fun _ => ?_)
    extract_lets -underBinder braced
    have hbraced : ∀ u, (braced u).Yields all e mid fun hi item =>
        OrderlyParts all lo hi [.item item] := by
      refine fun _ => (hg.members (OrderlyParts.nil (le_refl mid)).header hg.item).bind
        fun hi x hx => .pure ?_
      rw [List.append_nil] at hx
      rw [List.append_assoc]
      exact (hattributes.header.append hx).item
    exact .ite (hbraced ()) (.skip hbraced)
  exact .ite (.skip hbehind) (.skip hbehind)

/-- So is a trait, or another name for one. -/
theorem InOrder.traitItem (hg : g.InOrder all) {attributes : List Part}
    (hattributes : OrderlyParts all lo mid attributes) :
    (g.traitItem attributes).Yields all e mid fun hi item =>
      OrderlyParts all lo hi [.item item] := by
  refine .skip fun _ => .skip fun _ => .skip fun _ => .skip fun name =>
    hg.generics.bind fun next x hgenerics => .skip fun alias_ => .ite ?_ (.skip fun _ => ?_)
  · refine (Yields.joined (f := Prod.snd) fun mid => hg.bound false false e mid).bind
      fun last bounds hbounds => (hg.conditions hbounds).before fun hi x hx => .skip fun _ => .pure ?_
    have hall := hattributes.header.append (hgenerics.header.append hx)
    simp only [← List.append_assoc] at hall
    exact hall.item
  · extract_lets -underBinder behind
    have hbehind : ∀ last bounds, OrderlyParts all next last bounds →
        (behind bounds).Yields all e last fun hi item => OrderlyParts all lo hi [.item item] := by
      refine fun last bounds hbounds => (hg.conditions hbounds).before fun _ conditions hconditions =>
        (hg.members (hgenerics.header.append hconditions) fun _ _ => hg.traitMember).bind
          fun hi members hmembers => .pure ?_
      have hall := hattributes.header.append hmembers
      simp only [← List.append_assoc] at hall
      exact hall.item
    exact .ite ((hg.boundsUntil _).bind hbehind) (hbehind next [] (.nil (le_refl next)))

/-- The conditions and members of an implementation are in order **with the trait and the type that
it is for**. -/
theorem InOrder.implEnd (hg : g.InOrder all) {attributes generics trait_ : List Part} {self_ : Ty}
    {hidden : Bool} {start next last : Position}
    (hattributes : OrderlyParts all lo start attributes)
    (hgenerics : OrderlyParts all start next generics)
    (hself : OrderlyParts all next last (trait_ ++ [.type self_])) :
    (do
      let (_, conditions) ← g.whereClause
      let (inner, items) ← g.members g.implMember
      if hidden then return .other []
      return .implementation (attributes ++ inner ++ generics ++ conditions ++ trait_) self_ items :
        Reader Item).Yields all e last fun hi item => OrderlyParts all lo hi [.item item] := by
  refine (hg.conditions hself).before fun _ conditions hconditions =>
    (hg.members (hgenerics.header.append hconditions) fun _ _ => hg.implMember).bind
      fun hi members hmembers => ?_
  have hall := hattributes.header.append hmembers
  refine .ite (.pure (orderlyParts_nothing hall.le)) (.pure (OrderlyHeader.item ?_))
  simpa [Item.parts] using hall

/-- An implementation is an item in order, **of a trait or of a type**. -/
theorem InOrder.implItem (hg : g.InOrder all) {attributes : List Part} {visible : Bool}
    (hattributes : OrderlyParts all lo mid attributes) :
    (g.implItem attributes visible).Yields all e mid fun hi item =>
      OrderlyParts all lo hi [.item item] := by
  refine .skip fun _ => .skip fun _ => .skip fun _ => .skip fun ts => ?_
  extract_lets -underBinder behind
  have hbehind : ∀ next x, OrderlyParts all mid next x.2 →
      (behind x).Yields all e next fun hi item => OrderlyParts all lo hi [.item item] := by
    refine fun next x hgenerics => .skip fun ts => ?_
    extract_lets -underBinder isConst behind
    have hbehind : ∀ u, (behind u).Yields all e next fun hi item =>
        OrderlyParts all lo hi [.item item] := by
      refine fun _ => .skip fun ts => ?_
      extract_lets -underBinder negative
      have htype : (do
          let t ← g.type true
          return (t, ()) : Reader (Ty × Unit)).Yields all e next fun hi x =>
            OrderlyParts all next hi [.type x.1] :=
        (hg.type true e next).bind fun _ _ ht => .pure ht
      refine (Yields.withText (.ite (.skip fun _ => htype) htype)).bind fun last x hx =>
        .skip fun isFor => .ite ((hg.type true e last).bind fun hi self_ hself => ?_) ?_
      · obtain ⟨⟨first, u⟩, text⟩ := x
        cases first with
        | path p =>
            exact hg.implEnd hattributes hgenerics ((orderlyParts_typePath.mp hx).append hself)
        | _ => exact hg.implEnd hattributes hgenerics (hself.widen hx.le (le_refl hi))
      · refine hg.implEnd hattributes hgenerics ?_
        rw [List.nil_append]
        split
        · exact orderlyParts_other.mpr (.nil hx.le)
        · exact hx
    exact .ite (.skip fun _ => .skip hbehind) (hbehind ())
  exact .ite (hg.generics.bind hbehind) (hbehind mid (false, []) (.nil (le_refl mid)))

/-- So is an external crate, which has **nothing but attributes**. -/
theorem externCrateItem_inOrder {attributes : List Part}
    (hattributes : OrderlyParts all lo mid attributes) :
    (externCrateItem attributes).Yields all e mid fun hi item =>
      OrderlyParts all lo hi [.item item] := by
  refine .skip fun _ => .skip fun _ => .skip fun _ => ?_
  extract_lets -underBinder behind
  have hbehind : ∀ name, (behind name).Yields all e mid fun hi item =>
      OrderlyParts all lo hi [.item item] := by
    refine fun name => .skip fun _ => ?_
    extract_lets -underBinder ended
    have hended : ∀ alias_, (ended alias_).Yields all e mid fun hi item =>
        OrderlyParts all lo hi [.item item] :=
      fun alias_ => .skip fun _ => .pure hattributes.header.item
    exact .ite (.skip fun _ => .ite (.skip hended) (.skip hended)) (hended none)
  exact .ite (.skip hbehind) (.skip hbehind)

/-- So is a foreign block. -/
theorem InOrder.foreignItem (hg : g.InOrder all) {attributes : List Part}
    (hattributes : OrderlyParts all lo mid attributes) :
    (g.foreignItem attributes).Yields all e mid fun hi item =>
      OrderlyParts all lo hi [.item item] := by
  refine .skip fun _ => .skip fun _ => .skip fun _ => ?_
  extract_lets -underBinder behind
  have hbehind : ∀ u, (behind u).Yields all e mid fun hi item =>
      OrderlyParts all lo hi [.item item] := by
    refine fun _ => (hg.members (OrderlyParts.nil (le_refl mid)).header
      fun _ _ => hg.foreignMember).bind fun hi x hx => .pure ?_
    rw [List.append_nil] at hx
    rw [List.append_assoc]
    exact (hattributes.header.append hx).item
  exact .ite (.skip hbehind) (hbehind ())

/-- The definition of a macro mentions nothing, and is in order. -/
theorem macroDefinition_inOrder :
    macroDefinition.Yields all e lo fun hi item => OrderlyParts all lo hi [.item item] := by
  have hnothing : (do
      any
      return .other [] : Reader Item).Yields all e lo fun hi item =>
        OrderlyParts all lo hi [.item item] :=
    .skip fun _ => .pure (orderlyParts_nothing (le_refl lo))
  refine .skip fun _ => .skip fun _ => .skip fun _ => ?_
  extract_lets -underBinder behind
  have hbehind : ∀ u, (behind u).Yields all e lo fun hi item =>
      OrderlyParts all lo hi [.item item] :=
    fun _ => .skip fun _ => .ite hnothing (.skip fun _ => hnothing)
  exact .ite (.skip hbehind) (hbehind ())

/-- A constant is an item in order, and **one that is not plain** is an item without parts. -/
theorem InOrder.constantItem (hg : g.InOrder all) {attributes : List Part}
    (hattributes : OrderlyParts all lo mid attributes) :
    (do
      let (name, plain, valued, parts) ← g.constant
      if plain && valued then return .declaration .constant name (attributes ++ parts)
      return .other [] : Reader Item).Yields all e mid fun hi item =>
        OrderlyParts all lo hi [.item item] :=
  hg.constant.bind fun _ _ hx => .ite
    (.pure (hattributes.header.append hx).item)
    (.pure (orderlyParts_nothing (hattributes.le.trans hx.le)))

/-- A name for a type is an item in order, and **one without a type** is an item without parts. -/
theorem InOrder.typeItem (hg : g.InOrder all) {attributes : List Part}
    (hattributes : OrderlyParts all lo mid attributes) :
    (do
      let (name, type, parts) ← g.namedType true false
      match type with
      | some t => return .typeAlias (attributes ++ parts) name t
      | none => return .other [] : Reader Item).Yields all e mid fun hi item =>
        OrderlyParts all lo hi [.item item] := by
  refine (hg.namedType true false).bind fun hi x hx => ?_
  obtain ⟨name, type, parts⟩ := x
  cases type with
  | some t =>
      have hall := hattributes.header.append hx
      rw [← List.append_assoc] at hall
      exact .pure hall.item
  | none => exact .pure (orderlyParts_nothing (hattributes.le.trans hx.le))

/-- **Items are in order.** -/
theorem InOrder.itemRule (hg : g.InOrder all) :
    g.itemRule.Yields all e lo fun hi item => OrderlyParts all lo hi [.item item] := by
  refine hg.outerAttributes.bind fun mid a ha => .skip fun start => .skip fun visible => ?_
  have hattributes := ha.parts
  extract_lets -underBinder noVisibility
  have hforeign : (noVisibility (g.foreignItem a.parts)).Yields all e mid fun hi item =>
      OrderlyParts all lo hi [.item item] :=
    .ite (.skip fun _ => hg.foreignItem hattributes) (hg.foreignItem hattributes)
  refine .skip fun ts => ?_
  extract_lets -underBinder next
  -- in the order of the rule
  refine .ite (hg.functionItem hattributes) <|
    .ite (.ite (externCrateItem_inOrder hattributes) <| .ite hforeign <| .ite hforeign <|
      .skip fun _ => .ite (.skip fun _ => .fails) .fails) <|
    .ite (hg.useItem hattributes) <| .ite (hg.staticItem hattributes) <|
    .ite (hg.constantItem hattributes) <|
    .ite (.ite (hg.traitItem hattributes) <| .ite (hg.implItem hattributes) <| .ite hforeign <|
      .ite (hg.moduleItem hattributes) .fails) <|
    .ite (hg.moduleItem hattributes) <| .ite (hg.typeItem hattributes) <|
    .ite ?structure_ <| .ite ?enumeration <| .ite ?union <| .ite (hg.traitItem hattributes) <|
    .ite (hg.implItem hattributes) <| .ite ?macro_ <| .ite ?use .fails
  case structure_ =>
    refine .skip fun _ => .skip fun _ => hg.generics.bind fun _ _ hgenerics =>
      hg.structBody.bind fun hi _ hbody => .pure ?_
    exact ((hattributes.append hgenerics).header.append hbody).item
  case enumeration =>
    refine .skip fun _ => .skip fun _ => hg.generics.bind fun _ _ hgenerics =>
      hg.orderly_whereClause.bind fun _ _ hconditions => (partsInGroup fun _ _ => hg.variant).bind
        fun hi _ hvariants => .pure (OrderlyParts.header ?_).item
    exact ((hattributes.append hgenerics).append hconditions.1).append hvariants
  case union =>
    refine .skip fun _ => .skip fun _ => hg.generics.bind fun _ _ hgenerics =>
      hg.orderly_whereClause.bind fun _ _ hconditions => hg.namedFields.bind fun hi _ hfields =>
        .pure (OrderlyParts.header ?_).item
    exact ((hattributes.append hgenerics).append hconditions.1).append hfields
  case macro_ =>
    exact macroDefinition_inOrder.mono fun _ _ h => h.widen ha.parts.le (le_refl _)
  case use =>
    exact (hg.macroItem true).bind fun _ _ hx =>
      .pure (hattributes.append hx).header.item

/-! ### The whole grammar -/

/-- A file is read in order: its attributes, **and then its items**. -/
theorem InOrder.fileRule (hg : g.InOrder all) :
    (fileRule g).Yields all e lo fun hi p =>
      OrderlyParts all lo hi (p.attributes ++ p.items.map .item) := by
  refine hg.innerAttributes.bind fun mid attributes hattributes =>
    (Yields.untilEmpty (f := fun item => [.item item]) fun next => hg.item e next).bind
      fun hi items hitems => .pure ?_
  rw [← List.map_eq_flatMap] at hitems
  exact hattributes.orderly.append hitems

end Grammar

end CapabilityGate.Program
