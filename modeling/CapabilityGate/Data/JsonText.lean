import CapabilityGate.Data.Basic

/-!
# JSON texts

Reads the value that a JSON text denotes and writes the text of a value, on one line or indented
by two spaces for each level. Who reads a text says what to look at in it. What is looked at may not
nest too deeply, and its texts need to mean characters; of the rest it is enough that it is
well-formed, so this may nest as deeply as it likes and escape half a character.

## Main definitions

* `JsonText.Look`: what is looked at in a value.
* `JsonText.readFor`: the value of a text that is one JSON value and nothing else, as far as it is
  looked at.
* `JsonText.read`: the value of such a text when all of it is looked at.
* `JsonText.compact`: the text of a value on one line.
* `JsonText.indented`: the text of a value, a line for each member and field.
-/

namespace CapabilityGate.JsonText

/-! ### Writing -/

/-- The digit that stands for `n` in a text of base sixteen. -/
def hexDigit (n : Nat) : Char :=
  if n < 10 then Char.ofNat (48 + n) else Char.ofNat (87 + n)

/-- The written form of one character of a text: a quote, a backslash and the control characters
are escaped, and all other characters stand for themselves. -/
def escape (c : Char) : List Char :=
  match c with
  | '"' => ['\\', '"']
  | '\\' => ['\\', '\\']
  | '\n' => ['\\', 'n']
  | '\r' => ['\\', 'r']
  | '\t' => ['\\', 't']
  | '\x08' => ['\\', 'b']
  | '\x0c' => ['\\', 'f']
  | c =>
    if c.toNat < 0x20 then
      ['\\', 'u', '0', '0', hexDigit (c.toNat / 16), hexDigit (c.toNat % 16)]
    else [c]

/-- A text in quotes. -/
def quoted (s : String) : String :=
  String.ofList ('"' :: s.toList.flatMap escape ++ ['"'])

mutual
/-- The text of a value without blanks or line breaks. -/
def compact : Data → String
  | .null => "null"
  | .bool true => "true"
  | .bool false => "false"
  | .int n => toString n
  | .real written => written
  | .text s => quoted s
  | .list [] => "[]"
  | .list (d :: rest) => "[" ++ compact d ++ compactMembers rest ++ "]"
  | .record [] => "\x7b\x7d"
  | .record ((name, d) :: rest) =>
    "\x7b" ++ quoted name ++ ":" ++ compact d ++ compactFields rest ++ "\x7d"

/-- The members of a list after the first, each after a comma. -/
def compactMembers : List Data → String
  | [] => ""
  | d :: rest => "," ++ compact d ++ compactMembers rest

/-- The fields of a record after the first, each after a comma. -/
def compactFields : List (String × Data) → String
  | [] => ""
  | (name, d) :: rest => "," ++ quoted name ++ ":" ++ compact d ++ compactFields rest
end

/-- A new line at the given level. -/
def newLine (level : Nat) : String :=
  "\n" ++ String.ofList (List.replicate (2 * level) ' ')

mutual
/-- The text of a value that stands at `level`, with a line for each member and field of it.
An empty list or record takes no line of its own. -/
def indentedAt (level : Nat) : Data → String
  | .list (d :: rest) =>
    "[" ++ newLine (level + 1) ++ indentedAt (level + 1) d ++
      indentedMembers (level + 1) rest ++ newLine level ++ "]"
  | .record ((name, d) :: rest) =>
    "\x7b" ++ newLine (level + 1) ++ quoted name ++ ": " ++ indentedAt (level + 1) d ++
      indentedFields (level + 1) rest ++ newLine level ++ "\x7d"
  | d => compact d

/-- The members of a list after the first, each after a comma on a line of its own. -/
def indentedMembers (level : Nat) : List Data → String
  | [] => ""
  | d :: rest => "," ++ newLine level ++ indentedAt level d ++ indentedMembers level rest

/-- The fields of a record after the first, each after a comma on a line of its own. -/
def indentedFields (level : Nat) : List (String × Data) → String
  | [] => ""
  | (name, d) :: rest =>
    "," ++ newLine level ++ quoted name ++ ": " ++ indentedAt level d ++ indentedFields level rest
end

/-- The text of a value with a line for each member and field. -/
def indented (d : Data) : String :=
  indentedAt 0 d

/-! ### Reading -/

/-- The characters that may stand between the parts of a text. -/
def isGap (c : Char) : Bool :=
  c == ' ' || c == '\t' || c == '\n' || c == '\r'

/-- A text without the gap at its start. -/
def skipGap (s : List Char) : List Char :=
  s.dropWhile isGap

/-- The value of a digit of base sixteen, in either case. -/
def hexValue? (c : Char) : Option Nat :=
  if '0' ≤ c && c ≤ '9' then some (c.toNat - 48)
  else if 'a' ≤ c && c ≤ 'f' then some (c.toNat - 87)
  else if 'A' ≤ c && c ≤ 'F' then some (c.toNat - 55)
  else none

/-- The number that four digits of base sixteen spell at the start of a text, and the rest. -/
def hexFour? : List Char → Option (Nat × List Char)
  | a :: b :: c :: d :: rest => do
    let a ← hexValue? a
    let b ← hexValue? b
    let c ← hexValue? c
    let d ← hexValue? d
    some (((a * 16 + b) * 16 + c) * 16 + d, rest)
  | _ => none

/-- The character that an escape with the unit `unit` stands for, and the rest of the text: a
high surrogate takes the low surrogate of a second escape with it, and alone neither means a
character. -/
def escapedUnit? (unit : Nat) (rest : List Char) : Option (Char × List Char) :=
  if unit < 0xD800 || 0xDFFF < unit then some (Char.ofNat unit, rest)
  else if 0xDC00 ≤ unit then none
  else
    match rest with
    | '\\' :: 'u' :: rest => do
      let (low, rest) ← hexFour? rest
      if 0xDC00 ≤ low && low ≤ 0xDFFF then
        some (Char.ofNat (0x10000 + (unit - 0xD800) * 0x400 + (low - 0xDC00)), rest)
      else none
    | _ => none

/-- What is **looked at** in a value. -/
inductive Look where
  /-- Nothing. -/
  | nothing
  /-- All of it. -/
  | whole
  /-- The members of a list, each in the same way. -/
  | members (each : Look)
  /-- The fields of the given names, each in its way. The members of a list that stands for the
  record are looked at as these fields are, in order. -/
  | fields (named : List (String × Look))

namespace Look

/-- What is looked at in the first member of a list. -/
def first : Look → Look
  | nothing => nothing
  | members each => each
  | fields ((_, look) :: _) => look
  | _ => whole

/-- What is looked at in the members behind the first. -/
def later : Look → Look
  | fields (_ :: named) => fields named
  | look => look

/-- What is looked at in the field `name`. -/
def field (name : String) : Look → Look
  | nothing => nothing
  | fields named => (named.lookup name).getD nothing
  | _ => whole

/-- Whether a list or a record may be entered when values may nest `depth` more levels. -/
def enters : Look → (depth : Nat) → Bool
  | nothing, _ => true
  | _, depth => depth != 0

/-- The character that an escape with the unit `unit` stands for, and the rest of the text. A unit
that means no character is passed over in a text that is not looked at. -/
def unit? (look : Look) (unit : Nat) (rest : List Char) : Option (Char × List Char) :=
  match look with
  | nothing => some ((escapedUnit? unit rest).getD ('\uFFFD', rest))
  | _ => escapedUnit? unit rest

end Look

/-- The character that `e` stands for behind a backslash. -/
def escaped? (e : Char) : Option Char :=
  match e with
  | '"' => some '"'
  | '\\' => some '\\'
  | '/' => some '/'
  | 'b' => some '\x08'
  | 'f' => some '\x0c'
  | 'n' => some '\n'
  | 'r' => some '\r'
  | 't' => some '\t'
  | _ => none

/-- Reads the characters of a text up to its closing quote. `fuel` bounds their number. -/
def readChars (look : Look) : Nat → List Char → Option (List Char × List Char)
  | 0, _ => none
  | fuel + 1, s =>
    match s with
    | '"' :: rest => some ([], rest)
    | '\\' :: 'u' :: rest => do
      let (unit, rest) ← hexFour? rest
      let (c, rest) ← look.unit? unit rest
      let (cs, rest) ← readChars look fuel rest
      some (c :: cs, rest)
    | '\\' :: e :: rest => do
      let c ← escaped? e
      let (cs, rest) ← readChars look fuel rest
      some (c :: cs, rest)
    | c :: rest =>
      if c.toNat < 0x20 || c == '\\' then none
      else do
        let (cs, rest) ← readChars look fuel rest
        some (c :: cs, rest)
    | [] => none

/-- The number that decimal digits spell. -/
def decimalValue (digits : List Char) : Nat :=
  digits.foldl (fun n d => n * 10 + (d.toNat - 48)) 0

/-- The fraction at the start of a text, its point included, and the rest. A point without a
digit is no fraction. -/
def readFraction? : List Char → Option (List Char × List Char)
  | '.' :: rest =>
    let digits := rest.takeWhile Char.isDigit
    if digits.isEmpty then none else some ('.' :: digits, rest.dropWhile Char.isDigit)
  | s => some ([], s)

/-- The exponent at the start of a text, its mark and sign included, and the rest. -/
def readExponent? : List Char → Option (List Char × List Char)
  | mark :: rest =>
    if mark == 'e' || mark == 'E' then
      let (sign, rest) := match rest with
        | '+' :: rest => (['+'], rest)
        | '-' :: rest => (['-'], rest)
        | rest => ([], rest)
      let digits := rest.takeWhile Char.isDigit
      if digits.isEmpty then none
      else some (mark :: sign ++ digits, rest.dropWhile Char.isDigit)
    else some ([], mark :: rest)
  | [] => some ([], [])

/-- Reads a number: digits without a superfluous zero in front, perhaps a minus sign before them,
a fraction and an exponent behind. Zero with a minus sign is no whole number. -/
def readNumber (s : List Char) : Option (Data × List Char) := do
  let (negative, s) := match s with
    | '-' :: rest => (true, rest)
    | s => (false, s)
  let digits := s.takeWhile Char.isDigit
  if digits.isEmpty || (digits.head? == some '0' && digits.length > 1) then none
  else do
    let (fraction, rest) ← readFraction? (s.dropWhile Char.isDigit)
    let (exponent, rest) ← readExponent? rest
    if fraction.isEmpty && exponent.isEmpty && !(negative && digits == ['0']) then
      let n : Int := decimalValue digits
      some (.int (if negative then -n else n), rest)
    else
      some (.real (String.ofList ((if negative then ['-'] else []) ++ digits ++ fraction ++
        exponent)), rest)

/-- Reads the word `word` as the value `d`. -/
def readWord (word : List Char) (d : Data) (s : List Char) : Option (Data × List Char) :=
  if word.isPrefixOf s then some (d, s.drop word.length) else none

mutual
/-- Reads a value at the start of a text and returns it with the rest. `depth` is how many more
levels values may nest that are looked at, and `fuel` bounds the work. -/
def readValue : (fuel depth : Nat) → Look → List Char → Option (Data × List Char)
  | 0, _, _, _ => none
  | fuel + 1, depth, look, s =>
    match skipGap s with
    | '"' :: rest => do
      let (cs, rest) ← readChars look (rest.length + 1) rest
      some (.text (String.ofList cs), rest)
    | '[' :: rest =>
      if look.enters depth then
        match skipGap rest with
        | ']' :: rest => some (.list [], rest)
        | rest => do
          let (members, rest) ← readMembers fuel (depth - 1) look rest
          some (.list members, rest)
      else none
    | '\x7b' :: rest =>
      if look.enters depth then
        match skipGap rest with
        | '\x7d' :: rest => some (.record [], rest)
        | rest => do
          let (fields, rest) ← readFields fuel (depth - 1) look rest
          some (.record fields, rest)
      else none
    | 't' :: rest => readWord ['r', 'u', 'e'] (.bool true) rest
    | 'f' :: rest => readWord ['a', 'l', 's', 'e'] (.bool false) rest
    | 'n' :: rest => readWord ['u', 'l', 'l'] .null rest
    | s => readNumber s

/-- Reads the members of a list that is open, one at least, and the bracket that closes it. -/
def readMembers : (fuel depth : Nat) → Look → List Char → Option (List Data × List Char)
  | 0, _, _, _ => none
  | fuel + 1, depth, look, s => do
    let (d, rest) ← readValue fuel depth look.first s
    match skipGap rest with
    | ',' :: rest => do
      let (more, rest) ← readMembers fuel depth look.later rest
      some (d :: more, rest)
    | ']' :: rest => some ([d], rest)
    | _ => none

/-- Reads the fields of a record that is open, one at least, and the brace that closes it. The names
are looked at if anything is. -/
def readFields : (fuel depth : Nat) → Look → List Char → Option (List (String × Data) × List Char)
  | 0, _, _, _ => none
  | fuel + 1, depth, look, s =>
    match skipGap s with
    | '"' :: rest => do
      let (cs, rest) ← readChars look (rest.length + 1) rest
      match skipGap rest with
      | ':' :: rest => do
        let name := String.ofList cs
        let (d, rest) ← readValue fuel depth (look.field name) rest
        match skipGap rest with
        | ',' :: rest => do
          let (more, rest) ← readFields fuel depth look rest
          some ((name, d) :: more, rest)
        | '\x7d' :: rest => some ([(name, d)], rest)
        | _ => none
      | _ => none
    | _ => none
end

/-- How many levels lists and records may nest that are looked at. -/
def maxDepth : Nat := 127

/-- The value of a text that is one JSON value, with gaps around it at most, of which `look` is
**looked at**. What is not looked at in the value means nothing. -/
def readFor (look : Look) (s : String) : Option Data :=
  match readValue (2 * s.length + 2) maxDepth look s.toList with
  | some (d, rest) => if (skipGap rest).isEmpty then some d else none
  | none => none

/-- The value of a text that is one JSON value, **all of it** looked at. -/
def read (s : String) : Option Data :=
  readFor .whole s

end CapabilityGate.JsonText
