/-!
# Structured values

The values that a JSON text or a TOML text denotes. Fields of a record keep the order in which
they were written.

## Main definitions

* `Data`: a structured value.
* `Data.field?`: the value of a field.
* `Data.sorted`: the same value with the fields of each record ordered by name, where of several
  fields of one name the last one counts.
-/

namespace CapabilityGate

/-- A structured value. -/
inductive Data where
  /-- The value that stands for none. -/
  | null
  /-- A truth value. -/
  | bool (b : Bool)
  /-- A whole number, written without fraction and exponent. -/
  | int (n : Int)
  /-- Any other number, by the text it was written with. -/
  | real (written : String)
  /-- A text. -/
  | text (s : String)
  /-- A list. -/
  | list (members : List Data)
  /-- A record: named fields in order. -/
  | record (fields : List (String × Data))
  deriving Repr, Inhabited

namespace Data

/-- The value of the first field called `name` of a record. -/
def field? (name : String) : Data → Option Data
  | record fields => fields.lookup name
  | _ => none

/-- Puts a field into a list of fields ordered by name, in place of one of that name. -/
def insertField (name : String) (value : Data) : List (String × Data) → List (String × Data)
  | [] => [(name, value)]
  | (n, v) :: rest =>
    if name == n then (name, value) :: rest
    else if name < n then (name, value) :: (n, v) :: rest
    else (n, v) :: insertField name value rest

mutual
/-- The value with the fields of every record in it ordered by name; of several fields of one
name the last one counts. -/
def sorted : Data → Data
  | list members => list (sortedAll members)
  | record fields => record (sortedFields fields [])
  | d => d

/-- Sorts each value of a list. -/
def sortedAll : List Data → List Data
  | [] => []
  | d :: rest => d.sorted :: sortedAll rest

/-- Sorts each field and puts it into the ordered fields `done`. -/
def sortedFields : List (String × Data) → List (String × Data) → List (String × Data)
  | [], done => done
  | (name, d) :: rest, done => sortedFields rest (insertField name d.sorted done)
end

/-- A list of texts. -/
def ofTexts (xs : List String) : Data :=
  list (xs.map text)

/-- A value that may be missing, with `null` for a missing one. -/
def ofOption {α : Type} (f : α → Data) : Option α → Data
  | none => null
  | some a => f a

end Data

end CapabilityGate
