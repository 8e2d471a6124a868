import CapabilityGate.Toml.Scalar
import CapabilityGate.Toml.Table

/-!
# TOML texts

Reads the structured value that a TOML text denotes.

## Main definitions

* `Toml.value`: a value at the front of a text.
* `Toml.read`: the value of a whole text, or none if it is not well formed.
-/

namespace CapabilityGate.Toml

mutual
/-- Reads a value. `depth` is how many more levels lists and tables may nest, and `fuel` bounds
the work. -/
def value : (fuel depth : Nat) → Take Data
  | 0, _, _ => none
  | fuel + 1, depth, s =>
    match s with
    | '"' :: _ => (quotedText s).map fun (t, rest) => (.text t, rest)
    | '\'' :: _ => (quotedText s).map fun (t, rest) => (.text t, rest)
    | 't' :: 'r' :: 'u' :: 'e' :: rest => some (.bool true, rest)
    | 'f' :: 'a' :: 'l' :: 's' :: 'e' :: rest => some (.bool false, rest)
    | '[' :: rest =>
      match depth with
      | 0 => none
      | depth + 1 => do
        let (members, rest) ← members fuel depth rest
        some (.list members, rest)
    | '\x7b' :: rest =>
      match depth with
      | 0 => none
      | depth + 1 =>
        match skipBlanks rest with
        | '\x7d' :: rest => some (.record [], rest)
        | rest => do
          let (fields, rest) ← fields fuel depth [] rest
          some (.record (dataOfFields fields), rest)
    | s => (dateTime s).or (number s)

/-- Reads the members of a list that is open, and the bracket that closes it. -/
def members : (fuel depth : Nat) → Take (List Data)
  | 0, _, _ => none
  | fuel + 1, depth, s =>
    match skipLines s with
    | ']' :: rest => some ([], rest)
    | s => do
      let (d, rest) ← value fuel depth s
      match skipLines rest with
      | ',' :: rest => do
        let (more, rest) ← members fuel depth rest
        some (d :: more, rest)
      | ']' :: rest => some ([d], rest)
      | _ => none

/-- Reads the fields of a table in braces, one at least, and the brace that closes it. The fields
before them are `done`. -/
def fields : (fuel depth : Nat) → Fields → Take Fields
  | 0, _, _, _ => none
  | fuel + 1, depth, done, s => do
    let (k, rest) ← key s
    match rest with
    | '=' :: rest => do
      let (d, rest) ← value fuel depth (skipBlanks rest)
      let done ← insert k d done
      match skipBlanks rest with
      | ',' :: rest => fields fuel depth done rest
      | '\x7d' :: rest => some (done, rest)
      | _ => none
    | _ => none
end

/-- Reads a header behind its brackets, up to the brackets that close it. -/
def header (closing : List Char) (s : List Char) : Option (List String × List Char) := do
  let (path, rest) ← key s
  if closing.isPrefixOf rest then some (path, rest.drop closing.length) else none

/-- Reads one line, with the lines that a value on it runs over. -/
def line (d : Document) (s : List Char) : Option (Document × List Char) :=
  match s with
  | '[' :: '[' :: rest => do
    let (path, rest) ← header [']', ']'] rest
    let rest ← endOfLine? rest
    let d ← d.openMember path
    some (d, rest)
  | '[' :: rest => do
    let (path, rest) ← header [']'] rest
    let rest ← endOfLine? rest
    let d ← d.openTable path
    some (d, rest)
  | s => do
    let (k, rest) ← key s
    match rest with
    | '=' :: rest => do
      let (v, rest) ← value (2 * rest.length + 2) maxDepth (skipBlanks rest)
      let rest ← endOfLine? rest
      let d ← d.add k v
      some (d, rest)
    | _ => none

/-- Reads lines up to the end. `fuel` bounds their number. -/
def lines : (fuel : Nat) → Document → List Char → Option Document
  | 0, _, _ => none
  | fuel + 1, d, s =>
    match skipLines s with
    | [] => some d
    | '#' :: rest => if (rest.dropWhile inComment).isEmpty then some d else none
    | s => do
      let (d, rest) ← line d s
      lines fuel d rest

/-- The structured value of a TOML text. A byte order mark at its start is passed over. -/
def read (s : String) : Option Data := do
  let cs := match s.toList with
    | '\uFEFF' :: rest => rest
    | cs => cs
  let d ← lines (cs.length + 1) .empty cs
  let root ← d.close
  some (.record (dataOfFields root))

end CapabilityGate.Toml
