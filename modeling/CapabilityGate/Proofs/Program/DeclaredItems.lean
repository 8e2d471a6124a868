import CapabilityGate.Proofs.Program.Components
import CapabilityGate.Proofs.Program.Walk

/-!
# What the walk for declarations reaches

The walk for declarations is a recursion over the tree of a program. Here it is taken apart level
by level: what a part declares itself, what the walk enters from there, and in which module. The
declarations of a program are then what is declared by the parts that the walk comes to.

## Main definitions

* `Part.declares`: what a part declares itself.
* `Part.entered`: the parts that the walk goes on to.
* `SourceFile.Enters`: the walk comes to a part, in a module.

## Main results

* `inPart_eq`: the walk is what a part declares and then the walk through what is entered.
* `mem_declarations_iff`: a program declares what the parts declare that the walk comes to.
-/

namespace CapabilityGate.Program

/-! ### One level of the walk -/

/-- What a part **declares itself**, in the module it stands in. -/
def Part.declares (module : List String) : Part → List Declaration
  | .item (.use _ global tree) => [⟨module, .use global tree⟩]
  | .item (.externCrate _ name alias_) => [⟨module, .crate name.text (alias_.map Word.text)⟩]
  | .item (.typeAlias _ name t) => [⟨module, .typeAlias name.text t⟩]
  | .item (.declaration _ name _) => [⟨module, .item name.text⟩]
  | .item (.module name _) => [⟨module, .module name.text⟩]
  | _ => []

/-- The module that the parts of a part stand in. -/
def Part.moduleWithin (module : List String) : Part → List String
  | .item (.module name _) => module ++ [name.text]
  | _ => module

/-- The parts of a part that the walk for declarations **enters**. What a macro is given is not
entered, and neither is what stands in a `use` item, an external crate, a name for a type, a
structure, an enumeration or a union. -/
def Part.entered : Part → List Part
  | .type (.path p) => [.path p]
  | .type (.wrapped inner) => [.type inner]
  | .type (.other _ parts) => parts
  | .expr (.path _ p) => [.path p]
  | .expr (.qualified _ owner _ p) => [.type owner, .path p]
  | .expr (.call callee args) => .expr callee :: args.map .expr
  | .expr (.method receiver _ _ turbofish args) => .expr receiver :: (turbofish ++ args.map .expr)
  | .expr (.paren inner) => [.expr inner]
  | .expr (.reference inner) => [.expr inner]
  | .expr (.tried inner) => [.expr inner]
  | .expr (.construct owner p fields) => owner ++ .path p :: fields
  | .expr (.invoke _) => []
  | .expr (.attributed attributes inner) => attributes ++ [.expr inner]
  | .expr (.compound _ parts) => parts
  | .pattern (.bind _ parts) => parts
  | .pattern (.typed attributes inner t) => attributes ++ [.pattern inner, .type t]
  | .pattern (.compound parts) => parts
  | .item (.use _ _ _) => []
  | .item (.externCrate _ _ _) => []
  | .item (.typeAlias _ _ _) => []
  | .item (.declaration kind _ parts) => if kind.isEntered then parts else []
  | .item (.module _ parts) => parts
  | .item (.implementation parts selfType members) => parts ++ .type selfType :: members
  | .item (.other parts) => parts
  | .path p => p.segments.flatMap Segment.args
  | .invoke _ => []
  | .binding attributes inner values => attributes ++ .pattern inner :: values.map .expr
  | .group parts => parts

/-- What is entered from a part is **what stands directly in it**, but for what the walk passes
over. -/
theorem Part.entered_eq (part : Part) :
    part.entered = (part.components.filter fun c => c.1.isDeclared).map Prod.snd := by
  cases part with
  | type t => cases t <;> simp +decide [Part.entered, Part.components, Role.filter_each]
  | expr e =>
      cases e with
      | attributed attributes inner =>
          cases h : Mentions.hidesAttributes inner <;>
            simp +decide [Part.entered, Part.components, Role.filter_each, h]
      | _ => simp +decide [Part.entered, Part.components, Role.filter_each]
  | pattern pattern =>
      cases pattern <;> simp +decide [Part.entered, Part.components, Role.filter_each]
  | item item =>
      cases item with
      | declaration kind name parts =>
          cases h : kind.isEntered <;>
            simp +decide [Part.entered, Part.components, Role.filter_each, h]
      | _ => simp +decide [Part.entered, Part.components, Role.filter_each]
  | path p =>
      obtain ⟨global, segments⟩ := p
      simp +decide [Part.entered, Part.components, Role.filter_each, Path.segments]
  | invoke i =>
      obtain ⟨name, braced, tokens, reading⟩ := i
      cases reading <;> simp +decide [Part.entered, Part.components, Role.filter_each]
  | _ => simp +decide [Part.entered, Part.components, Role.filter_each]

namespace Declaration

/-- What is declared in parts is declared in one of them. -/
theorem mem_inParts {module : List String} {parts : List Part} {d : Declaration} :
    d ∈ inParts module parts ↔ ∃ part ∈ parts, d ∈ inPart module part := by
  induction parts with
  | nil => simp [inParts]
  | cons part rest ih => simp [inParts, ih]

/-- Parts behind others declare what they do **behind what the others do**. -/
theorem inParts_append (module : List String) (parts more : List Part) :
    inParts module (parts ++ more) = inParts module parts ++ inParts module more := by
  induction parts with
  | nil => rfl
  | cons part rest ih => rw [List.cons_append, inParts, inParts, ih, List.append_assoc]

/-- The walk through parts goes through one after the other. -/
theorem inParts_eq_flatMap (module : List String) (parts : List Part) :
    inParts module parts = parts.flatMap (inPart module) := by
  induction parts with
  | nil => rw [inParts, List.flatMap_nil]
  | cons part rest ih => rw [inParts, ih, List.flatMap_cons]

/-- The declarations of a program are those in its parts. -/
theorem declarations_eq_inParts (p : SourceFile) : p.declarations = inParts [] p.parts := by
  have hitems : ∀ items : List Item,
      inParts [] (items.map .item) = items.flatMap (inItem []) := by
    intro items
    induction items with
    | nil => rfl
    | cons item rest ih => rw [List.map_cons, inParts, inPart, ih, List.flatMap_cons]
  rw [SourceFile.declarations, SourceFile.parts, inParts_append, hitems]

/-- Expressions as parts declare **what the expressions do**. -/
theorem inParts_exprs (module : List String) (es : List Expr) :
    inParts module (es.map .expr) = inExprs module es := by
  induction es with
  | nil => rw [List.map_nil, inParts, inExprs]
  | cons e rest ih => rw [List.map_cons, inParts, inExprs, ih, inPart]

/-- The arguments of segments declare **what the segments do**. -/
theorem inParts_flatMap_args (module : List String) (segments : List Segment) :
    inParts module (segments.flatMap Segment.args) = inSegments module segments := by
  induction segments with
  | nil => rw [List.flatMap_nil, inParts, inSegments]
  | cons segment rest ih =>
      obtain ⟨word, style, args⟩ := segment
      rw [List.flatMap_cons, inParts_append, ih, inSegments]
      rfl

/-- The walk through a part is **what it declares itself**, and then the walk through what is
entered from it. -/
theorem inPart_eq (module : List String) (part : Part) :
    inPart module part =
      part.declares module ++ inParts (part.moduleWithin module) part.entered := by
  cases part with
  | type t =>
      cases t <;> simp [Part.declares, Part.moduleWithin, Part.entered, inPart, inParts, inType]
  | expr e =>
      cases e <;>
        simp [Part.declares, Part.moduleWithin, Part.entered, inPart, inParts, inExpr,
          inParts_append, inParts_exprs]
  | pattern pattern =>
      cases pattern <;>
        simp [Part.declares, Part.moduleWithin, Part.entered, inPart, inParts, inPattern,
          inParts_append]
  | item item =>
      cases item with
      | declaration kind name parts =>
          simp only [Part.declares, Part.moduleWithin, Part.entered, inPart, inItem]
          cases kind.isEntered <;> simp [inParts]
      | _ =>
          simp [Part.declares, Part.moduleWithin, Part.entered, inPart, inParts, inItem,
            inParts_append]
  | path p =>
      obtain ⟨global, segments⟩ := p
      simp [Part.declares, Part.moduleWithin, Part.entered, inPart, inPath, Path.segments,
        inParts_flatMap_args]
  | invoke i => simp [Part.declares, Part.moduleWithin, Part.entered, inPart, inParts]
  | binding attributes pattern values =>
      simp [Part.declares, Part.moduleWithin, Part.entered, inPart, inParts, inParts_append,
        inParts_exprs]
  | group parts => simp [Part.declares, Part.moduleWithin, Part.entered, inPart]

end Declaration

/-! ### The parts that the walk comes to -/

/-- The walk for declarations **comes from** a part in one module to another part in another, or
the same. -/
inductive Enters : (module : List String) → (part : Part) → (at_ : List String) →
    (inner : Part) → Prop
  /-- It comes to the part itself. -/
  | here {module : List String} {part : Part} : Enters module part module part
  /-- It goes on to what is entered from the part. -/
  | inside {module at_ : List String} {part child inner : Part} (hchild : child ∈ part.entered)
      (h : Enters (part.moduleWithin module) child at_ inner) : Enters module part at_ inner

/-- The walk for declarations comes to a part of a program, in a module. -/
def SourceFile.Enters (p : SourceFile) (at_ : List String) (inner : Part) : Prop :=
  ∃ part ∈ p.parts, Program.Enters [] part at_ inner

/-- What is entered from a part is **smaller** than the part. -/
theorem sizeOf_lt_of_mem_entered {part child : Part} (h : child ∈ part.entered) :
    sizeOf child < sizeOf part := by
  rw [Part.entered_eq] at h
  obtain ⟨c, hc, rfl⟩ := List.mem_map.mp h
  exact sizeOf_lt_of_mem_components (List.mem_filter.mp hc).1

/-- The walk through a part meets **what is declared by the parts that it comes to**, and nothing
else. -/
theorem mem_inPart_iff {module : List String} {part : Part} {d : Declaration} :
    d ∈ Declaration.inPart module part ↔
      ∃ at_ inner, Enters module part at_ inner ∧ d ∈ inner.declares at_ := by
  constructor
  · intro hd
    rw [Declaration.inPart_eq, List.mem_append, Declaration.mem_inParts] at hd
    rcases hd with hself | ⟨child, hchild, hd⟩
    · exact ⟨module, part, .here, hself⟩
    · have := sizeOf_lt_of_mem_entered hchild
      obtain ⟨at_, inner, hinner, hdeclares⟩ := mem_inPart_iff.mp hd
      exact ⟨at_, inner, .inside hchild hinner, hdeclares⟩
  · rintro ⟨at_, inner, henters, hd⟩
    induction henters with
    | here =>
        rw [Declaration.inPart_eq]
        exact List.mem_append_left _ hd
    | inside hchild h ih =>
        rw [Declaration.inPart_eq]
        exact List.mem_append_right _ (Declaration.mem_inParts.mpr ⟨_, hchild, ih hd⟩)
termination_by sizeOf part

/-- A program declares **what the parts declare that the walk comes to**, and nothing else. -/
theorem mem_declarations_iff {p : SourceFile} {d : Declaration} :
    d ∈ p.declarations ↔ ∃ at_ inner, p.Enters at_ inner ∧ d ∈ inner.declares at_ := by
  rw [Declaration.declarations_eq_inParts, Declaration.mem_inParts]
  constructor
  · rintro ⟨part, hpart, hd⟩
    obtain ⟨at_, inner, henters, hdeclares⟩ := mem_inPart_iff.mp hd
    exact ⟨at_, inner, ⟨part, hpart, henters⟩, hdeclares⟩
  · rintro ⟨at_, inner, ⟨part, hpart, henters⟩, hdeclares⟩
    exact ⟨part, hpart, mem_inPart_iff.mpr ⟨at_, inner, henters, hdeclares⟩⟩

end CapabilityGate.Program
