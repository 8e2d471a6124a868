import CapabilityGate.Report.Outcome

/-!
# Reports of runs

A run is named by an identifier of 128 bits, and its report says how it ended and what the
program wrote.

## Main definitions

* `RunId`: the identifier of a run.
* `RunId.text`, `RunId.parse?`: its text, which has four spellings.
* `RunReport`: the report of a run.
-/

namespace CapabilityGate

/-- The identifier of a run: the digits of a number of 128 bits in base sixteen, in lower case. -/
structure RunId where
  /-- The digits. -/
  digits : List Char
  deriving Repr, DecidableEq, Inhabited

namespace RunId

/-- A digit of base sixteen in lower case. -/
def digit? (c : Char) : Option Char :=
  if c.isDigit || ('a' ≤ c && c ≤ 'f') then some c
  else if 'A' ≤ c && c ≤ 'F' then some (Char.ofNat (c.toNat + 32))
  else none

/-- Cuts digits into groups of the given lengths, with a hyphen between two groups. -/
def grouped : List Nat → List Char → List Char
  | [], _ => []
  | [_], ds => ds
  | n :: rest, ds => ds.take n ++ '-' :: grouped rest (ds.drop n)

/-- The lengths of the groups in which the digits are written. -/
def groups : List Nat := [8, 4, 4, 4, 12]

/-- The text of an identifier, its digits in groups with hyphens between them. -/
def text (i : RunId) : String :=
  String.ofList (grouped groups i.digits)

/-- The digits of a text that is cut into groups of the given lengths. -/
def ungrouped? : List Nat → List Char → Option (List Char)
  | [], [] => some []
  | [], _ => none
  | [n], cs => if cs.length = n then some cs else none
  | n :: rest, cs =>
    match cs.drop n with
    | '-' :: more => (ungrouped? rest more).map (cs.take n ++ ·)
    | _ => none

/-- The word in front of an identifier that is written as a name. -/
def urn : List Char := "urn:uuid:".toList

/-- The digits, still in either case, of the four spellings: bare digits, groups, groups in
braces, and groups behind `urn:uuid:`. -/
def spelled? (cs : List Char) : Option (List Char) :=
  match cs.length with
  | 32 => some cs
  | 36 => ungrouped? groups cs
  | 38 =>
    if cs.head? = some '\x7b' && cs.getLast? = some '\x7d' then
      ungrouped? groups (cs.drop 1).dropLast
    else none
  | 45 => if urn.isPrefixOf cs then ungrouped? groups (cs.drop urn.length) else none
  | _ => none

/-- Reads the text of an identifier in any of its spellings. -/
def parse? (s : String) : Option RunId := do
  let cs ← spelled? s.toList
  let digits ← cs.mapM digit?
  return ⟨digits⟩

end RunId

/-- The report of a run. -/
structure RunReport where
  /-- The identifier of the run. -/
  id : RunId
  /-- How it ended. -/
  outcome : Outcome
  /-- What the program wrote. -/
  output : String
  /-- The same, line by line. -/
  chunks : List String
  /-- The directory that the run took place in, if it had one. -/
  workspace : Option String
  /-- How long the run took, in milliseconds. -/
  elapsedMs : Nat
  deriving Repr, DecidableEq, Inhabited

end CapabilityGate
