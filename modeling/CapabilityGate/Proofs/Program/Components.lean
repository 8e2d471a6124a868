import CapabilityGate.Program.Declaration
import CapabilityGate.Program.Mention

/-!
# What parts are made of

Both walks over a program go from a part to what stands directly in it, and pass over some of that.
Here all that a part is made of is listed once, in the order in which it stands there, with the
walks that go on to it.

## Main definitions

* `Role`: which walks go on to what stands in a part, and how.
* `Part.components`: what stands directly in a part, each with its role.

## Main results

* `sizeOf_lt_of_mem_components`: what stands in a part is smaller than the part.
-/

namespace CapabilityGate.Program

/-- Which walks go on to something that stands directly in a part, and how. -/
inductive Role where
  /-- Both walks go on to it. -/
  | plain
  /-- Both do, and the walk for mentions takes it as called. -/
  | callee
  /-- Both do, and the walk for mentions takes it as called if the part is. -/
  | bare
  /-- The walk for mentions passes over it. -/
  | unmentioned
  /-- The walk for declarations passes over it. -/
  | undeclared
  deriving DecidableEq

namespace Role

/-- Whether the walk for declarations goes on to what has the role. -/
def isDeclared : Role → Bool
  | undeclared => false
  | _ => true

/-- Whether the walk for mentions goes on to what has the role. -/
def isMentioned : Role → Bool
  | unmentioned => false
  | _ => true

/-- Whether the walk for mentions takes what has the role as called, in a part that may be `called`
itself. -/
def isCalled (called : Bool) : Role → Bool
  | callee => true
  | bare => called
  | _ => false

@[simp] theorem isCalled_plain (called : Bool) : plain.isCalled called = false := rfl
@[simp] theorem isCalled_callee (called : Bool) : callee.isCalled called = true := rfl
@[simp] theorem isCalled_bare (called : Bool) : bare.isCalled called = called := rfl
@[simp] theorem isCalled_undeclared (called : Bool) : undeclared.isCalled called = false := rfl

/-- Parts that have all the same role. -/
def each (role : Role) (parts : List Part) : List (Role × Part) :=
  parts.map fun part => (role, part)

/-- Of parts with one role a walk goes on to all or to none. -/
theorem filter_each (keeps : Role → Bool) (role : Role) (parts : List Part) :
    (role.each parts).filter (fun c => keeps c.1) = if keeps role then role.each parts else [] := by
  induction parts with
  | nil => simp [each]
  | cons part rest ih => cases h : keeps role <;> simp_all [each]

@[simp] theorem map_snd_each (role : Role) (parts : List Part) :
    (role.each parts).map Prod.snd = parts := by
  simp [each, Function.comp_def]

end Role

open Role

/-- **All that stands directly in a part**, each with its role. -/
def Part.components : Part → List (Role × Part)
  | .type (.path p) => plain.each [.path p]
  | .type (.wrapped inner) => plain.each [.type inner]
  | .type (.other _ parts) => plain.each parts
  | .expr (.path _ p) => unmentioned.each [.path p]
  | .expr (.qualified _ owner _ p) => unmentioned.each [.type owner, .path p]
  | .expr (.call e args) => (callee, .expr e) :: plain.each (args.map .expr)
  | .expr (.method receiver _ _ turbofish args) =>
    (plain, .expr receiver) :: (unmentioned.each turbofish ++ plain.each (args.map .expr))
  | .expr (.paren inner) => plain.each [.expr inner]
  | .expr (.reference inner) => plain.each [.expr inner]
  | .expr (.tried inner) => plain.each [.expr inner]
  | .expr (.construct owner p fields) =>
    plain.each owner ++ (plain, .path p) :: plain.each fields
  | .expr (.invoke i) => undeclared.each [.invoke i]
  | .expr (.attributed attributes inner) =>
    (if Mentions.hidesAttributes inner then unmentioned else plain).each attributes ++
      [(bare, .expr inner)]
  | .expr (.compound _ parts) => plain.each parts
  | .pattern (.bind _ parts) => plain.each parts
  | .pattern (.typed attributes inner t) =>
    plain.each attributes ++ plain.each [.pattern inner, .type t]
  | .pattern (.compound parts) => plain.each parts
  | .item (.use attributes _ _) => undeclared.each attributes
  | .item (.externCrate attributes _ _) => undeclared.each attributes
  | .item (.typeAlias parts _ t) => undeclared.each parts ++ undeclared.each [.type t]
  | .item (.declaration kind _ parts) =>
    (if kind.isEntered then plain else undeclared).each parts
  | .item (.module _ parts) => plain.each parts
  | .item (.implementation parts selfType members) =>
    plain.each parts ++ (plain, .type selfType) :: plain.each members
  | .item (.other parts) => plain.each parts
  | .path (.mk _ segments) => plain.each (segments.flatMap Segment.args)
  | .invoke (.mk _ _ _ (.list members)) => undeclared.each (members.map .expr)
  | .invoke (.mk _ _ _ .raw) => []
  | .binding attributes inner values =>
    plain.each attributes ++ (plain, .pattern inner) :: plain.each (values.map .expr)
  | .group parts => plain.each parts

/-- A part among parts of one role is **smaller** than their list. -/
theorem sizeOf_lt_of_mem_each {role : Role} {parts : List Part} {c : Role × Part}
    (h : c ∈ role.each parts) : sizeOf c.2 < sizeOf parts := by
  obtain ⟨part, hpart, rfl⟩ := List.mem_map.mp h
  exact List.sizeOf_lt_of_mem hpart

/-- An expression among others is, as a part, smaller than their list and one more. -/
theorem sizeOf_lt_of_mem_each_exprs {role : Role} {es : List Expr} {c : Role × Part}
    (h : c ∈ role.each (es.map .expr)) : sizeOf c.2 < 1 + sizeOf es := by
  obtain ⟨part, hpart, rfl⟩ := List.mem_map.mp h
  obtain ⟨e, he, rfl⟩ := List.mem_map.mp hpart
  have hsmaller := List.sizeOf_lt_of_mem he
  simp only [Part.expr.sizeOf_spec]
  omega

/-- The arguments of the segments of a path are smaller than the segments. -/
theorem sizeOf_lt_of_mem_args {segments : List Segment} {part : Part}
    (h : part ∈ segments.flatMap Segment.args) : sizeOf part < sizeOf segments := by
  obtain ⟨⟨word, style, args⟩, hsegment, hargs⟩ := List.mem_flatMap.mp h
  have hsmaller : sizeOf (Segment.mk word style args) < sizeOf segments :=
    List.sizeOf_lt_of_mem hsegment
  have hargument : sizeOf part < sizeOf args := List.sizeOf_lt_of_mem hargs
  rw [Segment.mk.sizeOf_spec] at hsmaller
  omega

/-- What stands directly in a part is **smaller** than the part. -/
theorem sizeOf_lt_of_mem_components {part : Part} {c : Role × Part} (h : c ∈ part.components) :
    sizeOf c.2 < sizeOf part := by
  have hlist : ∀ {role : Role} {parts : List Part}, c ∈ role.each parts →
      sizeOf c.2 < sizeOf parts := sizeOf_lt_of_mem_each
  have hexprs : ∀ {role : Role} {es : List Expr}, c ∈ role.each (es.map .expr) →
      sizeOf c.2 < 1 + sizeOf es := sizeOf_lt_of_mem_each_exprs
  cases part with
  | type t => cases t <;> simp [Part.components] at h ⊢ <;> grind [Role.each]
  | expr e => cases e <;> simp [Part.components] at h ⊢ <;> grind [Role.each]
  | pattern pattern => cases pattern <;> simp [Part.components] at h ⊢ <;> grind [Role.each]
  | item item => cases item <;> simp [Part.components] at h ⊢ <;> grind [Role.each]
  | path p =>
      obtain ⟨global, segments⟩ := p
      obtain ⟨part, hpart, rfl⟩ := List.mem_map.mp h
      have := sizeOf_lt_of_mem_args hpart
      simp only [Part.path.sizeOf_spec, Path.mk.sizeOf_spec]
      omega
  | invoke i =>
      obtain ⟨name, braced, tokens, reading⟩ := i
      cases reading with
      | list members =>
          have := hexprs h
          simp only [Part.invoke.sizeOf_spec, Invocation.mk.sizeOf_spec, Reading.list.sizeOf_spec]
          omega
      | raw => exact absurd h List.not_mem_nil
  | binding attributes pattern values =>
      have hpositive : 0 < sizeOf attributes := by cases attributes <;> simp +arith
      simp only [Part.components, List.mem_append, List.mem_cons] at h
      rw [Part.binding.sizeOf_spec]
      rcases h with hattribute | rfl | hvalue
      · have := hlist hattribute
        omega
      · simp only [Part.pattern.sizeOf_spec]
        omega
      · have := hexprs hvalue
        omega
  | group parts =>
      have := hlist h
      rw [Part.group.sizeOf_spec]
      omega

end CapabilityGate.Program
