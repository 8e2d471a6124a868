import CapabilityGate.Capability.Descriptor
import CapabilityGate.Data.Basic

/-!
# Reading forms

Readers for structured values. A record is read field by field in the order in which its fields
stand, so the first field that does not fit decides the error; a field without a meaning is
ignored. A record may also be written as the list of its fields' values, in the order of its
shape.

## Main definitions

* `FormError`: why a value does not fit.
* `Reads`: a reader.
* `Form.record`: the fields of a record of a given shape.
* `Form.need`, `Form.orElse`: the value of one field.
* `Form.tagged`: the kind of a value that carries its kind in a field.
-/

namespace CapabilityGate

/-- Why a structured value does not fit. -/
inductive FormError where
  /-- Its structure is another one. -/
  | mismatch
  /-- It is a text that is no type or descriptor. -/
  | descriptor (cause : DescriptorError)
  deriving Repr, DecidableEq

/-- A reader of values of type `α`. -/
abbrev Reads (α : Type) : Type := Data → Except FormError α

namespace Form

/-- Reads a text. -/
def text : Reads String
  | .text s => .ok s
  | _ => .error .mismatch

/-- Reads a truth value. -/
def truth : Reads Bool
  | .bool b => .ok b
  | _ => .error .mismatch

/-- Reads a whole number from `least` up to `bound`, which is excluded. -/
def between (least bound : Int) : Reads Int
  | .int n => if least ≤ n && n < bound then .ok n else .error .mismatch
  | _ => .error .mismatch

/-- Reads a number of so many bits without a sign. -/
def natural (bits : Nat) : Reads Nat :=
  fun d => (between 0 (Nat.pow 2 bits) d).map Int.toNat

/-- Reads each member of a list. -/
def listOf {α : Type} (r : Reads α) : Reads (List α)
  | .list ds => ds.mapM r
  | _ => .error .mismatch

/-- Reads a value that may be missing. -/
def maybe {α : Type} (r : Reads α) : Reads (Option α)
  | .null => .ok none
  | d => (r d).map some

/-- Reads the text of a type. -/
def typeText : Reads TypeName
  | .text s => (TypeName.parse s).mapError .descriptor
  | _ => .error .mismatch

/-- Reads the text of a descriptor. -/
def descriptorText : Reads Descriptor
  | .text s => (Descriptor.parse s).mapError .descriptor
  | _ => .error .mismatch

/-- Reads one of several words, alone or as the only field of a record, with no value. -/
def oneOf {α : Type} (words : List (String × α)) : Reads α
  | .text s => (words.lookup s).elim (.error .mismatch) .ok
  | .record [(s, .null)] => (words.lookup s).elim (.error .mismatch) .ok
  | _ => .error .mismatch

/-- A field of a record: its name, and the check that its value has to pass. -/
structure Field where
  /-- The name. -/
  name : String
  /-- The check. -/
  check : Data → Except FormError Unit

/-- The field whose values the reader `r` accepts. -/
def field {α : Type} (name : String) (r : Reads α) : Field :=
  ⟨name, fun d => (r d).map fun _ => ()⟩

/-- Checks the fields of a record in order. No field of the shape may occur twice. -/
def checkFields (shape : List Field) : List (String × Data) → Except FormError Unit
  | [] => .ok ()
  | (name, d) :: rest => do
    match shape.find? (·.name == name) with
    | some f =>
      f.check d
      if (rest.map Prod.fst).contains name then throw .mismatch
    | none => pure ()
    checkFields shape rest

/-- The fields of a **record** of the given shape, all checked. A list stands for the record with
its members as the first fields; `strict` says whether it may not have more members than the
shape has fields. -/
def record (strict : Bool) (shape : List Field) : Reads (List (String × Data))
  | .record fields => (checkFields shape fields).map fun _ => fields
  | .list members => do
    let fields := (shape.map Field.name).zip members
    checkFields shape fields
    if strict && shape.length < members.length then throw .mismatch
    return fields
  | _ => .error .mismatch

/-- The value of a field that a record needs to have. -/
def need {α : Type} (fields : List (String × Data)) (name : String) (r : Reads α) :
    Except FormError α :=
  match fields.lookup name with
  | some d => r d
  | none => .error .mismatch

/-- The value of a field, or another value if the record has no such field. -/
def orElse {α : Type} (fields : List (String × Data)) (name : String) (r : Reads α) (a : α) :
    Except FormError α :=
  match fields.lookup name with
  | some d => r d
  | none => .ok a

/-- The value of a field that may be missing. -/
def optional {α : Type} (fields : List (String × Data)) (name : String) (r : Reads α) :
    Except FormError (Option α) :=
  orElse fields name (maybe r) none

/-- The **kind** of a value that carries it in the field `tag`, or as the first member of a list,
and the rest of the value. -/
def tagged {α : Type} (tag : String) (kinds : List (String × α)) :
    Data → Except FormError (α × Data)
  | .record fields =>
    match fields.lookup tag with
    | some (.text s) =>
      match kinds.lookup s with
      | some kind => .ok (kind, .record (fields.filter (·.1 != tag)))
      | none => .error .mismatch
    | _ => .error .mismatch
  | .list (.text s :: rest) =>
    match kinds.lookup s with
    | some kind => .ok (kind, .list rest)
    | none => .error .mismatch
  | _ => .error .mismatch

/-- Reads what is left of a value that has nothing but its kind. -/
def nothing : Reads Unit :=
  fun d => (record true [] d).map fun _ => ()

end Form

end CapabilityGate
