import CapabilityGate.Proofs.Program.PatternsInOrder

/-!
# Expressions in the order of the text

The rules for expressions yield constructs whose mentions follow one another, if the readers that
they need do. Operators are read behind their first operand, which is in order already, and so are
the calls and fields behind an operand.

## Main results

* `Grammar.InOrder.climbRule`, `Grammar.InOrder.unaryRule`: operators, and operands with all that
  follows them.
* `Grammar.InOrder.earlyRule`: expressions as statements.
-/

namespace CapabilityGate.Program.Grammar

open Reader

variable {all : List Token} {g : Grammar} {e lo mid hi : Position} {structs : Bool}

/-! ### Operators -/

/-- The right operand of an operator is read in order **with all that binds more tightly**. -/
theorem InOrder.rightOperand (hg : g.InOrder all) (p : Precedence) :
    (g.rightOperand structs p).Yields all e lo fun hi x => OrderlyExpr all lo hi x := by
  refine (hg.unary structs e lo).bind fun mid first hfirst =>
    .iterate (fun mid right => OrderlyExpr all lo mid right) hfirst fun mid right hright =>
      .skip fun before => .ite ?_ (.pure hright)
  exact (hg.climb structs right _ e lo mid hright).bind fun hi right hright =>
    .skip fun _ => .ite (.pure hright) (.pure hright)

/-- What stands behind the dots of a range is read in order, **if there is anything**. -/
theorem InOrder.rangeTail (hg : g.InOrder all) :
    (g.rangeTail structs).Yields all e lo fun hi parts => OrderlyParts all lo hi parts :=
  .skip fun _ => .skip fun _ => .ite (.pure (.nil (le_refl lo)))
    ((hg.rightOperand .range).bind fun _ _ hx => .pure hx.part)

instance : Skips checkCast := by
  unfold checkCast
  infer_instance

/-- **Operators are in order behind their first operand.** -/
theorem InOrder.climbRule (hg : g.InOrder all) {left : Expr} (base : Precedence)
    (hleft : OrderlyExpr all lo mid left) :
    (g.climbRule structs left base).Yields all e mid fun hi x => OrderlyExpr all lo hi x := by
  refine .iterate (fun mid left => OrderlyExpr all lo mid left) hleft fun mid left hleft =>
    .skip fun ts => .ite (.pure hleft) ?_
  have hbinary : ∀ p form, (do
      let right ← g.rightOperand structs p
      return .inl (.compound form [.expr left, .expr right]) : Reader (Expr ⊕ Expr)).Yields
        all e mid fun hi x => x.elim (OrderlyExpr all lo hi) (OrderlyExpr all lo hi) :=
    fun p form => (hg.rightOperand p).bind fun hi right hright =>
      .pure (OrderlyExpr.compound (hleft.part.append hright.part))
  split
  next op p hop =>
    exact .ite (.pure hleft) (.ite .fails (.skip fun _ => hbinary p _))
  next =>
    refine .ite (.skip fun _ => hbinary .assign .assign) (.ite ?_ (.ite ?_ (.pure hleft)))
    · exact hg.rangeTail.bind fun hi parts hparts =>
        .pure (OrderlyExpr.compound (hleft.part.append hparts))
    · exact .skip fun _ => (hg.type false e mid).bind fun hi t ht => .skip fun _ =>
        .pure (OrderlyExpr.compound (hleft.part.append ht))

/-! ### Blocks with a head -/

/-- The expression in front of a block is read in order. -/
theorem InOrder.headExpr (hg : g.InOrder all) :
    g.headExpr.Yields all e lo fun hi x => OrderlyExpr all lo hi x :=
  hg.exprWith

/-- Conditionals of which each is the alternative of the one before are walked **as their clauses
are**, one after the other. -/
theorem exists_nested (before : List (List Part)) (last : List Part) :
    ∃ parts, before.foldl (fun inner parts => .compound .conditional (parts ++ [.expr inner]))
        (.compound .conditional last) = Expr.compound .conditional parts ∧
      WalkedAlike parts (before.reverse.flatten ++ last) := by
  induction before generalizing last with
  | nil => exact ⟨last, rfl, .refl last⟩
  | cons clause rest ih =>
      obtain ⟨parts, heq, hparts⟩ := ih (clause ++ [.expr (.compound .conditional last)])
      refine ⟨parts, heq, hparts.trans ?_⟩
      have hlast := (walkedAlike_compound .conditional last).append_left
        (rest.reverse.flatten ++ clause)
      simpa using hlast

/-- A conditional has its test **in front of its blocks**. -/
theorem InOrder.conditional (hg : g.InOrder all) :
    g.conditional.Yields all e lo fun hi x => OrderlyExpr all lo hi x := by
  refine (Yields.iterate (P := fun hi clauses => OrderlyParts all lo hi clauses.reverse.flatten)
    (fun mid done => OrderlyParts all lo mid done.reverse.flatten) (.nil (le_refl lo))
    fun mid done hdone => ?_).bind fun hi clauses hclauses => ?_
  · refine .skip fun _ => hg.headExpr.bind fun _ condition hcondition =>
      hg.plainBlock.bind fun hi block hblock => ?_
    have hclause : OrderlyParts all lo hi (done.reverse.flatten ++
        [.expr condition, .expr (.compound .block block)]) :=
      hdone.append (hcondition.part.append (orderlyParts_compound.mpr hblock))
    have hdone : OrderlyParts all lo hi
        ([Part.expr condition, .expr (.compound .block block)] :: done).reverse.flatten := by
      simpa using hclause
    refine .skip fun otherwise => .ite (.skip fun ts => .ite (.pure hdone) ?_) (.pure hdone)
    refine .ite ?_ .fails
    refine hg.plainBlock.bind fun hi last hlast => .pure ?_
    simpa using hclause.append (orderlyParts_compound.mpr hlast)
  · split
    next last before =>
      obtain ⟨parts, heq, hparts⟩ := exists_nested before last
      rw [heq]
      rw [List.reverse_cons, List.flatten_append, List.flatten_singleton] at hclauses
      exact .pure (.compound (hparts.orderly hclauses))
    next => exact .fails

/-- So has a loop with a test. -/
theorem InOrder.whileLoop (hg : g.InOrder all) :
    g.whileLoop.Yields all e lo fun hi x => OrderlyExpr all lo hi x :=
  .skip fun _ => hg.headExpr.bind fun _ _ hcondition => hg.body.bind fun _ _ hbody =>
    .pure (.compound (hcondition.part.append hbody))

/-- A loop over values has its pattern **in front of the values**, and these in front of its block.
-/
theorem InOrder.forLoop (hg : g.InOrder all) :
    g.forLoop.Yields all e lo fun hi x => OrderlyExpr all lo hi x :=
  .skip fun _ => hg.alternatives.bind fun _ _ hp => .skip fun _ => hg.headExpr.bind fun _ _ hx =>
    hg.body.bind fun _ _ hbody => .pure (.compound (hp.append (hx.part.append hbody)))

/-- A loop without a test has its block only. -/
theorem InOrder.endlessLoop (hg : g.InOrder all) :
    g.endlessLoop.Yields all e lo fun hi x => OrderlyExpr all lo hi x :=
  .skip fun _ => hg.body.bind fun _ _ hbody => .pure (.compound hbody)

/-- An unsafe block is an expression in order. -/
theorem InOrder.unsafeBlock (hg : g.InOrder all) :
    g.unsafeBlock.Yields all e lo fun hi x => OrderlyExpr all lo hi x :=
  .skip fun _ => hg.body.bind fun _ _ hbody => .pure (.compound hbody)

/-- So is a block that is tried. -/
theorem InOrder.tryBlock (hg : g.InOrder all) :
    g.tryBlock.Yields all e lo fun hi x => OrderlyExpr all lo hi x :=
  .skip fun _ => hg.plainBlock.bind fun _ _ hblock => .pure (.compound hblock)

/-- So is a loop or a block **behind a label**. -/
theorem InOrder.labelled (hg : g.InOrder all) :
    g.labelled.Yields all e lo fun hi x => OrderlyExpr all lo hi x :=
  .skip fun _ => .skip fun _ => .skip fun _ => .ite hg.whileLoop (.ite hg.forLoop
    (.ite hg.endlessLoop (.ite (hg.body.bind fun _ _ hbody => .pure (.compound hbody)) .fails)))

/-! ### Operands -/

/-- An expression that may be left out is read in order. -/
theorem InOrder.optionalExpr (hg : g.InOrder all) :
    g.optionalExpr.Yields all e lo fun hi parts => OrderlyParts all lo hi parts :=
  .skip fun _ => .ite (hg.expr.bind fun _ _ hx => .pure hx.part) (.pure (.nil (le_refl lo)))

/-- The fields of a structure are read in order, **with the structure that gives the rest** behind
them. -/
theorem InOrder.structFields (hg : g.InOrder all) :
    g.structFields.Yields all e lo fun hi parts => OrderlyParts all lo hi parts := by
  refine .iterate (fun mid done => OrderlyParts all lo mid done) (.nil (le_refl lo))
    fun mid done hdone => .skip fun ended => .ite (.pure hdone) (.skip fun dots => .ite ?_ ?_)
  · exact .skip fun last => .ite (.pure hdone) (hg.expr.bind fun hi x hx =>
      .pure (hdone.append hx.part))
  · refine hg.outerAttributes.bind fun mid a ha => .here fun p hp => .skip fun name => ?_
    have hdone := (hdone.append ha.parts).widen (le_refl lo) hp
    extract_lets -underBinder behind
    have hbehind : ∀ hi value, OrderlyExpr all p hi value →
        (behind value).Yields all e hi fun hi x =>
          x.elim (OrderlyParts all lo hi) (OrderlyParts all lo hi) := by
      intro hi value hvalue
      have hdone := hdone.append hvalue.part
      exact .skip fun last => .ite (.pure hdone) (.skip fun _ => .pure hdone)
    split
    · exact .skip fun _ => hg.expr.bind hbehind
    · exact .skip fun valued => .ite (hg.expr.bind hbehind)
        (hbehind p _ (.path (le_refl p) (le_refl p)))

/-- An operand that starts with a path stands where the path does. -/
theorem InOrder.pathOperand (hg : g.InOrder all) :
    (g.pathOperand structs).Yields all e lo fun hi x => OrderlyExpr all lo hi x := by
  refine .here fun p hp => hg.qualifiedPath.bind fun mid x hx => ?_
  obtain ⟨owner, name⟩ := x
  have hmid := hx.parts.le
  have hx := hx.parts.widen hp (le_refl mid)
  refine .skip fun ts => .ite ?_ (.ite ?_ ?_)
  · exact .skip fun _ => (hg.invocation name).bind fun hi use huse =>
      .pure (.invoke (huse.widen hx.le (le_refl hi)))
  · refine (Yields.inGroup fun _ _ => hg.structFields).bind fun hi fields hfields =>
      .pure (.construct ?_)
    have hall := hx.append hfields
    rwa [List.append_assoc] at hall
  · cases owner with
    | some owner => exact .pure (.qualified hp hmid)
    | none => exact .pure (.path hp hmid)

/-- What stands in round brackets is read in order, **as a tuple or as what is in it**. -/
theorem InOrder.parenOperand (hg : g.InOrder all) :
    g.parenOperand.Yields all e lo fun hi x => OrderlyExpr all lo hi x := by
  refine .group fun e o ho => .skip fun ended => .ite ?_ (hg.expr.bind fun mid first hfirst =>
    .skip fun alone => .ite ?_ ?_)
  · exact .pure fun hle => .compound (.nil (ho.trans hle))
  · exact .pure fun hle => .paren (hfirst.part.widen ho hle)
  · exact .skip fun _ => hg.exprs.bind fun hi more hmore =>
      .pure fun hle => .compound ((hfirst.part.append hmore).widen ho hle)

/-- So is what stands in square brackets: a list, or a value **and how often it is repeated**. -/
theorem InOrder.bracketOperand (hg : g.InOrder all) :
    g.bracketOperand.Yields all e lo fun hi x => OrderlyExpr all lo hi x := by
  refine .group fun e o ho => .skip fun ended => .ite ?_ (hg.expr.bind fun mid first hfirst =>
    .skip fun alone => .ite ?_ (.skip fun more => .ite ?_ (.skip fun repeated => .ite ?_ .fails)))
  · exact .pure fun hle => .compound (.nil (ho.trans hle))
  · exact .pure fun hle => .compound (hfirst.part.widen ho hle)
  · exact hg.exprs.bind fun hi more hmore =>
      .pure fun hle => .compound ((hfirst.part.append hmore).widen ho hle)
  · exact hg.expr.bind fun hi count hcount =>
      .pure fun hle => .compound ((hfirst.part.append hcount.part).widen ho hle)

/-- The parameters of a closure are read in order, **one behind the other**. -/
theorem InOrder.closureParameters (hg : g.InOrder all) :
    g.closureParameters.Yields all e lo fun hi parts => OrderlyParts all lo hi parts := by
  refine .iterate (fun mid done => OrderlyParts all lo mid done) (.nil (le_refl lo))
    fun mid done hdone => .skip fun ended => .ite (.pure hdone) ?_
  refine hg.outerAttributes.bind fun _ a ha => (hg.typedPattern ha.parts).bind fun hi p hp => ?_
  have hdone := hdone.append hp
  exact .skip fun last => .ite (.pure hdone) (.skip fun _ => .pure hdone)

/-- A closure has its parameters **in front of what it returns and of its body**. -/
theorem InOrder.closure (hg : g.InOrder all) :
    (g.closure structs).Yields all e lo fun hi x => OrderlyExpr all lo hi x := by
  refine hg.binder?.bind fun _ binder hbinder => .skip fun _ => .skip fun _ => .skip fun _ =>
    .skip fun _ => .skip fun _ => hg.closureParameters.bind fun mid parameters hparameters =>
      .skip fun _ => ?_
  have hbefore := hbinder.append hparameters
  refine .skip fun arrow => .ite ?_ ?_
  · exact (hg.type true e mid).bind fun _ _ ht => hg.plainBlock.bind fun _ _ hblock =>
      .pure (.compound (hbefore.append (ht.append (orderlyParts_compound.mpr hblock))))
  · exact hg.exprWith.bind fun _ _ hx => .pure (.compound (hbefore.append hx.part))

/-- What leaves a loop is read in order **with the value it leaves with**. -/
theorem InOrder.breakOut (hg : g.InOrder all) :
    (g.breakOut structs).Yields all e lo fun hi x => OrderlyExpr all lo hi x :=
  .skip fun _ => .skip fun _ => .ite .fails (.skip fun _ => .skip fun _ =>
    .ite (hg.expr.bind fun _ _ hx => .pure (.compound hx.part))
      (.pure (.compound (.nil (le_refl lo)))))

/-- A test by a pattern has the pattern **in front of the value**. -/
theorem InOrder.letTest (hg : g.InOrder all) :
    (g.letTest structs).Yields all e lo fun hi x => OrderlyExpr all lo hi x :=
  .skip fun _ => hg.alternatives.bind fun mid _ hp => .skip fun _ =>
    (hg.unary structs e mid).bind fun last first hfirst =>
      (hg.climb structs first .compare e mid last hfirst).bind fun _ _ hx =>
        .pure (.compound (hp.append hx.part))

/-- An arm of a choice has its pattern **in front of its guard**, and this in front of its value. -/
theorem InOrder.arm (hg : g.InOrder all) :
    g.arm.Yields all e lo fun hi part => OrderlyParts all lo hi [part] := by
  refine hg.outerAttributes.bind fun _ a ha => hg.alternatives.bind fun mid p hp =>
    .skip fun guarded => ?_
  have hpattern := ha.parts.append hp
  extract_lets -underBinder behind
  have hbehind : ∀ hi guard_, OrderlyParts all mid hi guard_ →
      (behind guard_).Yields all e hi fun hi part => OrderlyParts all lo hi [part] := by
    intro hi guard_ hguard
    refine .skip fun _ => (hg.early e hi).bind fun last x hx => .skip fun ended => ?_
    have hall := (hpattern.append hguard).append hx.part
    rw [List.append_assoc a.parts] at hall
    have harm := orderlyParts_group.mpr hall
    exact .ite (.skip fun _ => .pure harm) (.skip fun _ => .pure harm)
  exact .ite (hg.expr.bind fun hi x hx => hbehind hi _ hx.part)
    (hbehind mid [] (.nil (le_refl mid)))

/-- A choice has what it looks at **in front of its arms**. -/
theorem InOrder.choice (hg : g.InOrder all) :
    g.choice.Yields all e lo fun hi x => OrderlyExpr all lo hi x := by
  refine .skip fun _ => hg.headExpr.bind fun mid _ hx =>
    (Yields.inGroup (f := fun parts => parts) fun _ _ => hg.innerAttributes.bind
      fun _ _ hinner => (Yields.untilEmpty (f := fun part => [part]) fun _ => hg.arm).bind
        fun _ arms harms => .pure ?_).bind fun _ _ harms => .pure (.compound (hx.part.append harms))
  rw [List.flatMap_singleton'] at harms
  exact hinner.orderly.append harms

/-- An operand is in order, without what follows it. -/
theorem InOrder.atom (hg : g.InOrder all) :
    (g.atom structs).Yields all e lo fun hi x => OrderlyExpr all lo hi x := by
  have hempty : ∀ form, (Pure.pure (.compound form []) : Reader Expr).Yields all e lo
      fun hi x => OrderlyExpr all lo hi x :=
    fun form => .pure (.compound (.nil (le_refl lo)))
  have hoptional : ∀ form, (do return .compound form (← g.optionalExpr) : Reader Expr).Yields
      all e lo fun hi x => OrderlyExpr all lo hi x :=
    fun form => hg.optionalExpr.bind fun _ _ hparts => .pure (.compound hparts)
  refine .skip fun ts => ?_
  -- in the order of the rule
  exact .ite (.skip fun _ => hempty _) <| .ite (.skip fun _ => .skip fun _ =>
      hg.plainBlock.bind fun _ _ hblock => .pure (.compound hblock)) <|
    .ite hg.tryBlock <| .ite hg.closure <|
    .ite (.skip fun _ => .skip fun _ => .skip fun _ => .skip fun _ => hempty _) <|
    .ite hg.pathOperand <| .ite hg.parenOperand <| .ite hg.breakOut <|
    .ite (.skip fun _ => .skip fun _ => hempty _) <| .ite (.skip fun _ => hoptional _) <|
    .ite (.skip fun _ => (Yields.discarded (hg.expr.mono fun _ _ hx => hx.le)).bind
      fun _ _ hle => .pure (.compound (.nil hle))) <|
    .ite hg.bracketOperand <| .ite hg.letTest <| .ite hg.conditional <| .ite hg.whileLoop <|
    .ite hg.forLoop <| .ite hg.endlessLoop <| .ite hg.choice <|
    .ite (.skip fun _ => hoptional _) <| .ite hg.unsafeBlock <| .ite hg.constBlock <|
    .ite (hg.body.bind fun _ _ hbody => .pure (.compound hbody)) <|
    .ite (.map (hg.rangeTail.mono fun _ _ hparts => OrderlyExpr.compound hparts)) <|
    .ite (.skip fun _ => hempty _) <|
    .ite hg.labelled .fails

/-! ### What follows an operand -/

/-- Expressions between commas that a group holds. -/
theorem InOrder.groupedExprs (hg : g.InOrder all) {d : Delimiter} :
    (group d (terminated g.expr)).Yields all e lo fun hi es =>
      OrderlyParts all lo hi (es.map .expr) :=
  .inGroup fun _ _ => hg.exprs

/-- The field of an operand, or its method. -/
theorem InOrder.selection (hg : g.InOrder all) {left : Expr} (hleft : OrderlyExpr all lo mid left) :
    (g.selection left).Yields all e mid fun hi x => OrderlyExpr all lo hi x := by
  refine .skip fun awaited => .ite (.pure (.compound hleft.part)) (.here fun p hp =>
    .skip fun name => ?_)
  have hfield : OrderlyExpr all lo p (.compound .field [.expr left]) :=
    .compound (hleft.part.widen (le_refl lo) hp)
  cases name with
  | none => exact .pure hfield
  | some name =>
      refine .skip fun turbofished => ?_
      extract_lets -underBinder behind
      have hbehind : ∀ hi turbofish, p ≤ hi →
          (behind turbofish).Yields all e hi fun hi x => OrderlyExpr all lo hi x := by
        intro hi turbofish hhi
        refine .skip fun called => .ite ?_ (.pure (hfield.widen (le_refl lo) hhi))
        exact hg.groupedExprs.bind fun last args hargs =>
          .pure (.method hleft hp (hargs.widen hhi (le_refl last)))
      refine .ite (.skip fun _ => ?_) (hbehind p none (le_refl p))
      exact (Yields.map (hg.angleArguments.mono fun _ _ hargs => hargs.le)).bind hbehind

/-- An operand is in order as the field of itself, **as often as it is one**. -/
theorem orderlyExpr_fields {left : Expr} (hleft : OrderlyExpr all lo hi left) (indices : List Nat) :
    OrderlyExpr all lo hi
      (indices.foldl (fun e _ => .compound .field [.expr e]) left) := by
  induction indices generalizing left with
  | nil => exact hleft
  | cons index rest ih => exact ih (.compound hleft.part)

/-- **What follows an operand is in order behind it.** -/
theorem InOrder.trailers (hg : g.InOrder all) {left : Expr} (hleft : OrderlyExpr all lo mid left) :
    (g.trailers left).Yields all e mid fun hi x => OrderlyExpr all lo hi x := by
  refine .iterate (fun mid left => OrderlyExpr all lo mid left) hleft fun mid left hleft =>
    .skip fun ts => ?_
  have hselection : ∀ x, OrderlyExpr all lo mid x → (do
      return .inl (← g.selection x) : Reader (Expr ⊕ Expr)).Yields all e mid fun hi x =>
        x.elim (OrderlyExpr all lo hi) (OrderlyExpr all lo hi) :=
    fun x hx => (hg.selection hx).bind fun _ _ hx => .pure hx
  refine .ite ?_ (.ite ?_ (.ite ?_ (.ite ?_ (.pure hleft))))
  · exact hg.groupedExprs.bind fun _ _ hargs => .pure (OrderlyExpr.call hleft hargs)
  · refine .skip fun _ => .skip fun behind => ?_
    split
    · refine .ite (.skip fun _ => ?_) (hselection _ hleft)
      split
      · exact .fails
      next indices open_ hindices =>
        have hfields := orderlyExpr_fields hleft indices
        exact .ite (hselection _ hfields) (.pure hfields)
    · exact hselection _ hleft
  · exact (Yields.inGroup (f := fun x => [.expr x]) fun _ _ =>
      hg.expr.mono fun _ _ hx => hx.part).bind fun _ _ hindex =>
        .pure (OrderlyExpr.compound (hleft.part.append hindex))
  · exact .skip fun _ => .pure (OrderlyExpr.tried hleft.part)

/-- **Operands are in order**, with the operators in front of them and all that follows. -/
theorem InOrder.unaryRule (hg : g.InOrder all) :
    (g.unaryRule structs).Yields all e lo fun hi x => OrderlyExpr all lo hi x := by
  refine hg.outerAttributes.bind fun mid a ha => .skip fun ts => .ite ?_ (.ite ?_ ?_)
  · refine .skip fun _ => .skip fun ts => ?_
    extract_lets -underBinder raw behind
    have hoperand : (do
        let inner ← g.unary structs
        if raw then return (Expr.compound .rawAddress [.expr inner]).withAttributes a
        return (Expr.reference inner).withAttributes a : Reader Expr).Yields all e mid
          fun hi x => OrderlyExpr all lo hi x :=
      (hg.unary structs e mid).bind fun _ _ hx => .ite
        (.pure (ha.withAttributes (.compound hx.part)))
        (.pure (ha.withAttributes (.reference hx.part)))
    have hbehind : ∀ u, (behind u).Yields all e mid fun hi x => OrderlyExpr all lo hi x :=
      fun _ => .skip fun exclusive => .ite hoperand (.ite (.skip fun _ => hoperand) hoperand)
    exact .ite (.skip hbehind) (hbehind ())
  · exact .skip fun _ => (hg.unary structs e mid).bind fun _ _ hx =>
      .pure (ha.withAttributes (.compound hx.part))
  · refine .skip fun p => hg.atom.bind fun _ _ hatom => (hg.trailers hatom).bind fun hi x hx => ?_
    exact .ite (.pure (hx.widen ha.parts.le (le_refl hi)))
      (.ite .fails (.pure (ha.withAttributes hx)))

/-! ### Statements -/

/-- An expression that ends in a block is read in order, **or nothing is taken**. -/
theorem InOrder.blockLike? (hg : g.InOrder all) :
    g.blockLike?.Yields all e lo fun hi x =>
      (∃ e, x = some e ∧ OrderlyExpr all lo hi e) ∨ x = none ∧ hi = lo := by
  have hsome : ∀ {r : Reader Expr}, (r.Yields all e lo fun hi x => OrderlyExpr all lo hi x) →
      (some <$> r).Yields all e lo fun hi x =>
        (∃ e, x = some e ∧ OrderlyExpr all lo hi e) ∨ x = none ∧ hi = lo :=
    fun hr => .map (hr.mono fun _ x hx => .inl ⟨x, rfl, hx⟩)
  refine .skip fun ts => ?_
  exact .ite (hsome hg.conditional) <| .ite (hsome hg.whileLoop) <| .ite (hsome hg.forLoop) <|
    .ite (hsome hg.endlessLoop) <| .ite (hsome hg.choice) <| .ite (hsome hg.tryBlock) <|
    .ite (hsome hg.unsafeBlock) <| .ite (hsome hg.constBlock) <|
    .ite (hg.body.bind fun _ _ hbody => .pure (.inl ⟨_, rfl, .compound hbody⟩)) <|
    .ite (hsome hg.labelled) (.pure (.inr ⟨rfl, rfl⟩))

/-- **Expressions are in order as statements.** -/
theorem InOrder.earlyRule (hg : g.InOrder all) :
    g.earlyRule.Yields all e lo fun hi x => OrderlyExpr all lo hi x := by
  refine hg.outerAttributes.bind fun mid a ha => hg.blockLike?.bind fun hi x hx => ?_
  obtain ⟨block, rfl, hblock⟩ | ⟨rfl, rfl⟩ := hx
  · refine .skip fun ts => .ite ?_ (.pure (ha.withAttributes hblock))
    exact (hg.trailers hblock).bind fun hi x hx =>
      hg.climb true _ .jump e lo hi (ha.withAttributes hx)
  · exact (hg.unary true e hi).bind fun last x hx =>
      hg.climb true _ .jump e lo last (ha.withAttributes hx)

end CapabilityGate.Program.Grammar
