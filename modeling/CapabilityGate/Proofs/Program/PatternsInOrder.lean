import CapabilityGate.Proofs.Program.TypesInOrder

/-!
# Patterns in the order of the text

The rules for patterns yield constructs whose mentions follow one another, if the readers that they
need do.

## Main results

* `Grammar.InOrder.alternatives`: patterns between bars.
* `Grammar.InOrder.patternRule`: patterns.
-/

namespace CapabilityGate.Program.Grammar

open Reader

variable {all : List Token} {g : Grammar} {e lo mid hi : Position} {inExpr : Bool}

/-! ### Readers that take a token -/

instance : Hungry (g.segment inExpr) := by
  unfold segment
  dsimp only
  infer_instance

instance : Hungry (g.path inExpr) := by
  unfold path
  infer_instance

instance : Hungry (g.qualifiedPath inExpr) := by
  unfold qualifiedPath
  dsimp only
  infer_instance

instance : Hungry member where
  fails i x hempty h := by
    obtain ⟨ts, k, hahead, h⟩ := bind_eq_ok.mp h
    cases hahead
    rw [hempty] at h
    exact nomatch h

instance : Skips member where
  skips all e lo := by
    refine .skip fun ts => ?_
    split
    · exact .ite .fails (.skip fun _ => .pure rfl)
    · exact .ite (.skip fun _ => .pure rfl) .fails

instance (old : Bool) : Skips (limits old) := by
  unfold limits
  dsimp only
  infer_instance

/-! ### Ranges -/

/-- A path as a value is read in order, and so is a structure or a macro **that starts with one**.
-/
theorem InOrder.pathExpr (hg : g.InOrder all) :
    g.pathExpr.Yields all e lo fun hi x => OrderlyExpr all lo hi x := by
  refine .here fun p hp => hg.qualifiedPath.bind fun hi x hx => ?_
  obtain ⟨owner, name⟩ := x
  have hle := hx.parts.le
  cases owner with
  | some owner => exact .pure (.qualified hp hle)
  | none => exact .pure (.path hp hle)

/-- A constant block is an expression in order. -/
theorem InOrder.constBlock (hg : g.InOrder all) :
    g.constBlock.Yields all e lo fun hi x => OrderlyExpr all lo hi x :=
  .skip fun _ => hg.body.bind fun _ _ hparts => .pure (.compound hparts)

/-- The bound of a range is read in order, **or there is none**. -/
theorem InOrder.rangeBound (hg : g.InOrder all) :
    g.rangeBound.Yields all e lo fun hi x => OrderlyParts all lo hi (x.toList.map .expr) := by
  refine .skip fun ts => .ite (.pure (.nil (le_refl lo))) (.ite ?_ (.ite ?_ (.ite ?_ .fails)))
  · exact .skip fun _ => .pure (orderlyParts_compound.mpr (.nil (le_refl lo)))
  · exact hg.pathExpr.bind fun _ _ hx => .pure hx.part
  · exact hg.constBlock.bind fun _ _ hx => .pure hx.part

/-- So is its end, which an **old range** must have. -/
theorem InOrder.rangeEnd (hg : g.InOrder all) (old : Bool) :
    (g.rangeEnd old).Yields all e lo fun hi x => OrderlyParts all lo hi (x.toList.map .expr) :=
  .skip fun _ => hg.rangeBound.bind fun _ _ hx => .ite .fails (.pure hx)

/-- The bounds of a range are in order as a pattern, **the first in front of the last**. -/
theorem orderlyParts_rangePattern {first last : Option Expr}
    (hfirst : OrderlyParts all lo mid (first.toList.map .expr))
    (hlast : OrderlyParts all mid hi (last.toList.map .expr)) :
    OrderlyParts all lo hi [.pattern (rangePattern first last)] := by
  rw [rangePattern, orderlyParts_compoundPattern, orderlyParts_compound, List.map_append]
  exact hfirst.append hlast

/-! ### Patterns -/

/-- Patterns between bars are in order. -/
theorem InOrder.alternatives (hg : g.InOrder all) :
    g.alternatives.Yields all e lo fun hi p => OrderlyParts all lo hi [.pattern p] := by
  refine .skip fun led => (hg.pattern e lo).bind fun mid first hfirst =>
    (Yields.collect (f := fun part => [part]) fun mid => .skip fun ts => ?_).bind
      fun hi more hmore => ?_
  · exact .ite (.skip fun _ => (hg.pattern e mid).bind fun hi p hp => .found hp) .nothing
  · rw [List.flatMap_singleton'] at hmore
    have hall := hfirst.append hmore
    exact .ite (.pure (orderlyParts_compoundPattern.mpr hall))
      (.pure (hfirst.widen (le_refl lo) hmore.le))

/-- Patterns between commas. -/
theorem InOrder.patterns (hg : g.InOrder all) :
    (terminated g.alternatives).Yields all e lo fun hi ps =>
      OrderlyParts all lo hi (ps.map .pattern) := by
  simp only [List.map_eq_flatMap]
  exact .terminated fun _ => hg.alternatives

/-- A name alone is a pattern in order **wherever it stands**. -/
theorem orderlyParts_name {name : Word} (h : lo ≤ hi) :
    OrderlyParts all lo hi [.pattern (.bind name [])] :=
  orderlyParts_bind.mpr (.nil h)

/-- The pattern of a field is read in order, **behind its attributes**. -/
theorem InOrder.fieldPattern (hg : g.InOrder all) :
    g.fieldPattern.Yields all e lo fun hi parts => OrderlyParts all lo hi parts := by
  refine .skip fun boxed => .skip fun byRef => .skip fun mutable_ => .ite ?_ ?_
  · refine .skip fun name => .pure ?_
    split
    · exact .nil (le_refl lo)
    · exact orderlyParts_name (le_refl lo)
  · refine .skip fun name => ?_
    split
    · exact .skip fun _ => hg.alternatives.bind fun _ _ hp => .pure hp
    · exact .skip fun _ => .ite (hg.alternatives.bind fun _ _ hp => .pure hp)
        (.pure (orderlyParts_name (le_refl lo)))

/-- So are the patterns of all fields, **one behind the other**. -/
theorem InOrder.fieldPatterns (hg : g.InOrder all) :
    g.fieldPatterns.Yields all e lo fun hi parts => OrderlyParts all lo hi parts := by
  refine .iterate (fun mid done => OrderlyParts all lo mid done) (.nil (le_refl lo))
    fun mid done hdone => .skip fun ended => ?_
  refine .ite (.pure hdone) (hg.outerAttributes.bind fun hi a ha => .skip fun dots => ?_)
  have hdone := hdone.append ha.parts
  refine .ite (.pure hdone) (hg.fieldPattern.bind fun hi parts hparts => .skip fun last => ?_)
  have hdone := hdone.append hparts
  exact .ite (.pure hdone) (.skip fun _ => .pure hdone)

/-- A pattern that starts with a path is in order, with the type in front of the path and with what
stands behind it. -/
theorem InOrder.pathPattern (hg : g.InOrder all) :
    g.pathPattern.Yields all e lo fun hi p => OrderlyParts all lo hi [.pattern p] := by
  refine .here fun p hp => hg.qualifiedPath.bind fun mid x hx => ?_
  obtain ⟨owner, name⟩ := x
  have hmid := hx.parts.le
  have hx := hx.parts.widen hp (le_refl mid)
  dsimp -zeta only
  extract_lets -underBinder before value
  have hvalue : OrderlyExpr all lo mid value := by
    dsimp only [value]
    cases owner with
    | some owner => exact .qualified hp hmid
    | none => exact .path hp hmid
  refine .skip fun ts => .ite ?_ (.ite ?_ (.ite ?_ (.ite ?_ ?_)))
  · exact .skip fun _ => (hg.invocation name).bind fun hi use huse =>
      .pure (orderlyParts_compoundPattern.mpr (huse.widen hx.le (le_refl hi)))
  · refine (Yields.inGroup fun _ _ => hg.fieldPatterns).bind fun hi fields hfields => .pure ?_
    have hall := hx.append hfields
    rw [List.append_assoc] at hall
    exact orderlyParts_compoundPattern.mpr hall
  · refine (Yields.inGroup fun _ _ => hg.patterns).bind fun hi fields hfields => .pure ?_
    have hall := hx.append hfields
    rw [List.append_assoc] at hall
    exact orderlyParts_compoundPattern.mpr hall
  · exact (hg.rangeEnd true).bind fun hi last hlast =>
      .pure (orderlyParts_rangePattern hvalue.part hlast)
  · exact .pure (orderlyParts_compoundPattern.mpr hvalue.part)

/-- The patterns in square brackets are read in order, **one behind the other**. -/
theorem InOrder.slicePatterns (hg : g.InOrder all) :
    g.slicePatterns.Yields all e lo fun hi parts => OrderlyParts all lo hi parts := by
  refine (Yields.terminated (f := fun part => [part]) fun mid => .skip fun ts =>
    hg.alternatives.bind fun hi p hp => .ite .fails (.pure hp)).mono fun hi parts hparts => ?_
  rwa [List.flatMap_singleton'] at hparts

/-- **Patterns are in order.** -/
theorem InOrder.patternRule (hg : g.InOrder all) :
    g.patternRule.Yields all e lo fun hi p => OrderlyParts all lo hi [.pattern p] := by
  have hempty : (Pure.pure (.compound []) : Reader Pat).Yields all e lo fun hi p =>
      OrderlyParts all lo hi [.pattern p] :=
    .pure (orderlyParts_compoundPattern.mpr (.nil (le_refl lo)))
  refine .skip fun ts => .ite hg.pathPattern (.ite (.skip fun _ => hempty) (.ite ?box
    (.ite ?range (.ite ?name (.ite ?reference (.ite ?paren (.ite ?slice (.ite ?dots .fails))))))))
  case box =>
    refine .skip fun _ => (Yields.map (P := fun hi _ => lo ≤ hi) ?_).bind fun hi _ hle =>
      .pure (orderlyParts_compoundPattern.mpr (.nil hle))
    exact (hg.pattern e lo).mono fun _ _ hp => hp.le
  case range =>
    refine hg.rangeBound.bind fun mid first hfirst => .skip fun dots => .ite ?_ ?_
    · exact (hg.rangeEnd true).bind fun _ _ hlast => .pure (orderlyParts_rangePattern hfirst hlast)
    · exact .pure (orderlyParts_compoundPattern.mpr hfirst)
  case name =>
    refine .skip fun _ => .skip fun _ => .skip fun isSelf => ?_
    extract_lets -underBinder behind
    have hbehind : ∀ name, (behind name).Yields all e lo fun hi p =>
        OrderlyParts all lo hi [.pattern p] := by
      refine fun name => .skip fun bound => .ite ?_ ?_
      · exact (hg.pattern e lo).bind fun _ _ hp => .pure (orderlyParts_bind.mpr hp)
      · exact .pure (orderlyParts_name (le_refl lo))
    exact .ite (.skip hbehind) (.skip hbehind)
  case reference =>
    exact .skip fun _ => .skip fun _ => (hg.pattern e lo).bind fun _ _ hp =>
      .pure (orderlyParts_compoundPattern.mpr hp)
  case paren =>
    exact (Yields.inGroup fun _ _ => hg.patterns).bind fun _ _ hps =>
      .pure (orderlyParts_compoundPattern.mpr hps)
  case slice =>
    exact (Yields.inGroup fun _ _ => hg.slicePatterns).bind fun _ _ hps =>
      .pure (orderlyParts_compoundPattern.mpr hps)
  case dots =>
    refine (hg.rangeEnd false).bind fun hi last hlast => ?_
    cases last with
    | none => exact .pure (orderlyParts_compoundPattern.mpr hlast)
    | some last => exact .pure (orderlyParts_rangePattern (.nil (le_refl lo)) hlast)

/-- A pattern is in order with the attributes in front of it and **the type behind it**. -/
theorem InOrder.typedPattern (hg : g.InOrder all) {attributes : List Part}
    (hattributes : OrderlyParts all lo mid attributes) :
    (g.typedPattern attributes).Yields all e mid fun hi p =>
      OrderlyParts all lo hi [.pattern p] := by
  refine (hg.pattern e mid).bind fun hi p hp => .skip fun typed => .ite ?_ (.ite ?_ ?_)
  · exact (hg.type true e hi).bind fun _ _ ht =>
      .pure (OrderlyParts.typed (hattributes.append (hp.append ht)))
  · exact .pure (hp.widen hattributes.le (le_refl hi))
  · exact .pure (orderlyParts_compoundPattern.mpr (hattributes.append hp))

end CapabilityGate.Program.Grammar
