import CapabilityGate.Data.Basic

/-!
# Tables under construction

A TOML text builds its tables piece by piece: by headers, by keys with dots, and by tables in
braces. A table records how it came about, since that decides what may still be added to it.

## Main definitions

* `Toml.Node`: a value, a table or a list of tables.
* `Toml.alter`: changes the table that a list of names leads to.
* `Toml.insert`: adds a value under a key.
* `Toml.Document`: the tables read so far, and the one that keys are added to.
-/

namespace CapabilityGate.Toml

/-- A part of a text that is still read. -/
inductive Node where
  /-- A complete value. -/
  | leaf (d : Data)
  /-- A table: `implicit` as long as no header names it, and `dotted` when it came about by a key
  with dots. -/
  | table (implicit dotted : Bool) (fields : List (String × Node))
  /-- A list of tables that headers make. -/
  | tables (members : List (List (String × Node)))

instance : Inhabited Node := ⟨.leaf .null⟩

/-- The fields of a table. -/
abbrev Fields : Type := List (String × Node)

mutual
/-- The structured value of a node. -/
def Node.data : Node → Data
  | .leaf d => d
  | .table _ _ fields => .record (dataOfFields fields)
  | .tables members => .list (dataOfTables members)

/-- The structured values of fields. -/
def dataOfFields : List (String × Node) → List (String × Data)
  | [] => []
  | (name, node) :: rest => (name, node.data) :: dataOfFields rest

/-- The structured values of tables. -/
def dataOfTables : List (List (String × Node)) → List Data
  | [] => []
  | fields :: rest => .record (dataOfFields fields) :: dataOfTables rest
end

/-- Replaces the node of a field. -/
def replace (name : String) (node : Node) (fields : Fields) : Fields :=
  fields.map fun (n, old) => (n, if n == name then node else old)

/-- Changes the table that a list of names leads to. Tables that are missing on the way are made;
`dotted` says whether a key leads there, which may not enter a table that has a header. The
change is told whether the table came about by a key. -/
def alter (dotted : Bool) (change : Bool → Fields → Option Fields) :
    (path : List String) → (byKey : Bool) → Fields → Option Fields
  | [], byKey, fields => change byKey fields
  | name :: path, _, fields =>
    match fields.lookup name with
    | none => do
      let inner ← alter dotted change path dotted []
      some (fields ++ [(name, .table true dotted inner)])
    | some (.leaf _) => none
    | some (.table implicit byKey inner) =>
      if dotted && !implicit then none
      else do
        let inner ← alter dotted change path byKey inner
        some (replace name (.table implicit byKey inner) fields)
    | some (.tables members) =>
      match members.getLast? with
      | none => none
      | some last => do
        let last ← alter dotted change path false last
        some (replace name (.tables (members.dropLast ++ [last])) fields)

/-- Adds a field that is not there yet. -/
def addField (name : String) (node : Node) (fields : Fields) : Option Fields :=
  if (fields.lookup name).isSome then none else some (fields ++ [(name, node)])

/-- Adds a value under a key, which leads through tables that came about by keys only. -/
def insert (key : List String) (d : Data) (fields : Fields) : Option Fields :=
  match key.getLast? with
  | none => none
  | some name =>
    let path := key.dropLast
    alter true (fun byKey fields =>
      if byKey == path.isEmpty then none else addField name (.leaf d) fields) path false fields

/-- A text that is read: the tables whose end was met, and the one that keys are added to. -/
structure Document where
  /-- The outermost table. -/
  root : Fields
  /-- The table that keys are added to. -/
  current : Fields
  /-- The names that lead to that table. -/
  path : List String
  /-- Whether that table is a member of a list. -/
  member : Bool

namespace Document

/-- The document before its first line. -/
def empty : Document := ⟨[], [], [], false⟩

/-- Puts the current table at its place in the outermost one. -/
def close (d : Document) : Option Fields :=
  match d.path.getLast? with
  | none => some d.current
  | some name =>
    alter false (fun _ fields =>
      if d.member then
        match fields.lookup name with
        | some (.tables members) => some (replace name (.tables (members ++ [d.current])) fields)
        | some _ => none
        | none => some (fields ++ [(name, .tables [d.current])])
      else addField name (.table false false d.current) fields) d.path.dropLast false d.root

/-- Meets the header of a table. A table that only has been passed through on the way to others
is opened with what it holds. -/
def openTable (path : List String) (d : Document) : Option Document := do
  let root ← d.close
  let name ← path.getLast?
  let above := path.dropLast
  let root ← alter false (fun _ fields => some fields) above false root
  let held (fields : Fields) : Option Fields :=
    match fields.lookup name with
    | none => some []
    | some (.table true false inner) => some inner
    | some _ => none
  let current ← (fieldsAt above root).bind held
  let root ← alter false (fun _ fields => some (fields.filter (·.1 != name))) above false root
  some ⟨root, current, path, false⟩
where
  /-- The table that names lead to. -/
  fieldsAt : List String → Fields → Option Fields
    | [], fields => some fields
    | name :: path, fields =>
      match fields.lookup name with
      | some (.table _ _ inner) => fieldsAt path inner
      | some (.tables members) => members.getLast?.bind (fieldsAt path)
      | _ => none

/-- Meets the header of a member of a list of tables. -/
def openMember (path : List String) (d : Document) : Option Document := do
  let root ← d.close
  let name ← path.getLast?
  let root ← alter false (fun _ fields =>
    match fields.lookup name with
    | some (.tables _) => some fields
    | some _ => none
    | none => some (fields ++ [(name, .tables [])])) path.dropLast false root
  some ⟨root, [], path, true⟩

/-- Adds a value under a key. -/
def add (key : List String) (value : Data) (d : Document) : Option Document :=
  (insert key value d.current).map fun fields => { d with current := fields }

end Document

end CapabilityGate.Toml
