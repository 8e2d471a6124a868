import CapabilityGate.Data.JsonText

/-!
# Scalars of TOML texts

Keys, strings, numbers and dates, as they are written in a TOML text. Each function takes what it
reads from the front of a list of characters and returns it with the rest, or none if nothing of
the kind stands there.

## Main definitions

* `Toml.skipBlanks`, `Toml.skipLines`: gaps.
* `Toml.quotedText`: the four kinds of strings.
* `Toml.number`: integers and other numbers.
* `Toml.dateTime`: dates and times.
-/

namespace CapabilityGate.Toml

/-- Takes something from the front of a text. -/
abbrev Take (α : Type) : Type := List Char → Option (α × List Char)

/-! ### Gaps -/

/-- A text without the spaces and tabs at its start. -/
def skipBlanks (s : List Char) : List Char :=
  s.dropWhile fun c => c == ' ' || c == '\t'

/-- The text after the line break at its start. -/
def lineBreak? : List Char → Option (List Char)
  | '\n' :: rest => some rest
  | '\r' :: '\n' :: rest => some rest
  | _ => none

/-- Whether a character may stand in a comment. -/
def inComment (c : Char) : Bool :=
  c == '\t' || (0x20 ≤ c.toNat && c.toNat ≤ 0x7E) || 0x80 ≤ c.toNat

/-- A text without the comment at its start. -/
def skipComment : List Char → List Char
  | '#' :: rest => rest.dropWhile inComment
  | s => s

/-- The text after the end of a line: blanks, perhaps a comment, and a line break unless the text
ends. -/
def endOfLine? (s : List Char) : Option (List Char) :=
  match skipComment (skipBlanks s) with
  | [] => some []
  | s => lineBreak? s

/-- A text without the blanks, comments and line breaks at its start. `fuel` bounds their
number. -/
def skipLinesFor : (fuel : Nat) → List Char → List Char
  | 0, s => s
  | fuel + 1, s =>
    let s := skipBlanks s
    match lineBreak? (skipComment s) with
    | some rest => skipLinesFor fuel rest
    | none => s

/-- A text without the blanks, comments and line breaks at its start. -/
def skipLines (s : List Char) : List Char :=
  skipLinesFor (s.length + 1) s

/-! ### Strings -/

/-- The character that digits of base sixteen stand for. -/
def codePoint? (digits : List Char) : Option Char := do
  let values ← digits.mapM JsonText.hexValue?
  let n := values.foldl (fun n d => n * 16 + d) 0
  if n < 0xD800 || (0xE000 ≤ n && n < 0x110000) then some (Char.ofNat n) else none

/-- The character that an escape of one letter stands for. -/
def escaped? : Char → Option Char
  | 'b' => some '\x08'
  | 't' => some '\t'
  | 'n' => some '\n'
  | 'f' => some '\x0c'
  | 'r' => some '\r'
  | '"' => some '"'
  | '\\' => some '\\'
  | _ => none

/-- Puts a character in front of what is read next. -/
def cons? (c : Option Char) (next : Option (List Char × List Char)) :
    Option (List Char × List Char) :=
  match c, next with
  | some c, some (cs, rest) => some (c :: cs, rest)
  | _, _ => none

/-- Reads a string in double quotes, behind its opening quote. -/
def basic : Take (List Char)
  | '"' :: rest => some ([], rest)
  | '\\' :: 'u' :: a :: b :: c :: d :: rest => cons? (codePoint? [a, b, c, d]) (basic rest)
  | '\\' :: 'U' :: a :: b :: c :: d :: e :: f :: g :: h :: rest =>
    cons? (codePoint? [a, b, c, d, e, f, g, h]) (basic rest)
  | '\\' :: c :: rest => cons? (escaped? c) (basic rest)
  | c :: rest => if inComment c then cons? (some c) (basic rest) else none
  | [] => none

/-- Reads a string in single quotes, behind its opening quote. -/
def literal : Take (List Char)
  | '\'' :: rest => some ([], rest)
  | c :: rest => if inComment c then cons? (some c) (literal rest) else none
  | [] => none

/-- Takes the quotes that belong to a string of several lines and stand directly before the three
that close it: two at most. -/
def lastQuotes (quote : Char) : List Char → List Char × List Char
  | a :: b :: rest =>
    if a == quote && b == quote then ([quote, quote], rest)
    else if a == quote then ([quote], b :: rest)
    else ([], a :: b :: rest)
  | [a] => if a == quote then ([quote], []) else ([], [a])
  | [] => ([], [])

/-- Whether nothing but blanks stands before the next line break. -/
def atLineEnd (s : List Char) : Bool :=
  (lineBreak? (skipBlanks s)).isSome

/-- Reads a string of several lines in double quotes, behind its opening quotes. While it is
`joining` lines, blanks and line breaks are left out. -/
def basicLines (joining : Bool) : Take (List Char)
  | '"' :: '"' :: '"' :: rest => some (lastQuotes '"' rest)
  | '\\' :: 'u' :: a :: b :: c :: d :: rest =>
    cons? (codePoint? [a, b, c, d]) (basicLines false rest)
  | '\\' :: 'U' :: a :: b :: c :: d :: e :: f :: g :: h :: rest =>
    cons? (codePoint? [a, b, c, d, e, f, g, h]) (basicLines false rest)
  | '\\' :: c :: rest =>
    if atLineEnd (c :: rest) then basicLines true (c :: rest)
    else cons? (escaped? c) (basicLines false rest)
  | '\r' :: '\n' :: rest =>
    if joining then basicLines true rest else cons? (some '\n') (basicLines false rest)
  | c :: rest =>
    if joining && (c == ' ' || c == '\t' || c == '\n') then basicLines true rest
    else if c == '\n' || inComment c then cons? (some c) (basicLines false rest)
    else none
  | [] => none

/-- Reads a string of several lines in single quotes, behind its opening quotes. -/
def literalLines : Take (List Char)
  | '\'' :: '\'' :: '\'' :: rest => some (lastQuotes '\'' rest)
  | '\r' :: '\n' :: rest => cons? (some '\n') (literalLines rest)
  | c :: rest => if c == '\n' || inComment c then cons? (some c) (literalLines rest) else none
  | [] => none

/-- A string of several lines starts after the line break behind its opening quotes. -/
def dropFirstBreak (s : List Char) : List Char :=
  (lineBreak? s).getD s

/-- Reads a string on one line. -/
def lineText : Take String
  | '"' :: rest => (basic rest).map fun (cs, rest) => (String.ofList cs, rest)
  | '\'' :: rest => (literal rest).map fun (cs, rest) => (String.ofList cs, rest)
  | _ => none

/-- Reads a string of any kind. -/
def quotedText : Take String
  | '"' :: '"' :: '"' :: rest =>
    (basicLines false (dropFirstBreak rest)).map fun (cs, rest) => (String.ofList cs, rest)
  | '\'' :: '\'' :: '\'' :: rest =>
    (literalLines (dropFirstBreak rest)).map fun (cs, rest) => (String.ofList cs, rest)
  | s => lineText s

/-! ### Keys -/

/-- Whether a character may stand in a key without quotes. -/
def inBareKey (c : Char) : Bool :=
  c.isAlphanum || c == '_' || c == '-'

/-- Reads one name of a key. -/
def simpleKey (s : List Char) : Option (String × List Char) :=
  match s with
  | '"' :: _ => lineText s
  | '\'' :: _ => lineText s
  | s =>
    let name := s.takeWhile inBareKey
    if name.isEmpty then none else some (String.ofList name, s.dropWhile inBareKey)

/-- Reads the names of a key with the dots between them. `fuel` bounds their number. -/
def keyFor : (fuel : Nat) → Take (List String)
  | 0, _ => none
  | fuel + 1, s => do
    let (name, rest) ← simpleKey (skipBlanks s)
    match skipBlanks rest with
    | '.' :: rest => do
      let (names, rest) ← keyFor fuel rest
      some (name :: names, rest)
    | rest => some ([name], rest)

/-- How many levels keys and values may nest. -/
def maxDepth : Nat := 79

/-- Reads a key. -/
def key : Take (List String) :=
  keyFor maxDepth

/-! ### Numbers -/

/-- Reads digits, with single underscores between them. -/
def digitRun (isDigit : Char → Bool) : Take (List Char)
  | [] => none
  | c :: rest =>
    if isDigit c then
      match rest with
      | '_' :: rest => cons? (some c) (digitRun isDigit rest)
      | d :: rest =>
        if isDigit d then cons? (some c) (digitRun isDigit (d :: rest)) else some ([c], d :: rest)
      | [] => some ([c], [])
    else none

/-- Reads a sign, if there is one, and says whether it is a minus. -/
def sign : List Char → Bool × List Char
  | '+' :: rest => (false, rest)
  | '-' :: rest => (true, rest)
  | s => (false, s)

/-- Reads digits without a superfluous zero in front. -/
def plainDigits : Take (List Char)
  | '0' :: rest => some (['0'], rest)
  | s => digitRun Char.isDigit s

/-- The number that digits spell. -/
def digitsValue (base : Nat) (digits : List Char) : Nat :=
  digits.foldl (fun n d => n * base + (JsonText.hexValue? d).getD 0) 0

/-- A number, if 64 bits with a sign hold it. -/
def wholeNumber? (n : Int) : Option Data :=
  if -9223372036854775808 ≤ n && n < 9223372036854775808 then some (.int n) else none

/-- Reads a number that is written in base `base` behind its mark. -/
def based (base : Nat) (isDigit : Char → Bool) (s : List Char) : Option (Data × List Char) := do
  let (digits, rest) ← digitRun isDigit s
  let d ← wholeNumber? (digitsValue base digits)
  some (d, rest)

/-- Reads an integer. -/
def integer (s : List Char) : Option (Data × List Char) :=
  match s with
  | '0' :: 'x' :: rest => based 16 (fun c => (JsonText.hexValue? c).isSome) rest
  | '0' :: 'o' :: rest => based 8 (fun c => '0' ≤ c && c ≤ '7') rest
  | '0' :: 'b' :: rest => based 2 (fun c => c == '0' || c == '1') rest
  | s => do
    let (negative, s) := sign s
    let (digits, rest) ← plainDigits s
    let n : Int := digitsValue 10 digits
    let d ← wholeNumber? (if negative then -n else n)
    some (d, rest)

/-- Reads the exponent of a number, its mark included. -/
def exponent : Take (List Char)
  | mark :: rest =>
    if mark == 'e' || mark == 'E' then do
      let (negative, rest) := sign rest
      let (digits, rest) ← digitRun Char.isDigit rest
      some ('e' :: (if negative then '-' :: digits else digits), rest)
    else none
  | [] => none

/-- Reads the fraction of a number, its point included. -/
def fraction : Take (List Char)
  | '.' :: rest => cons? (some '.') (digitRun Char.isDigit rest)
  | _ => none

/-- The least number that is taken to be infinitely large: two to the power of 1024, less half a
unit in the last of 53 places. -/
def tooLarge : Nat := Nat.pow 2 1024 - Nat.pow 2 970

/-- Whether digits with a fraction and an exponent are a number that is not infinitely large. -/
def isFinite (digits fraction exponent : List Char) : Bool :=
  let written := digits ++ fraction.drop 1
  let mantissa := digitsValue 10 written
  let power : Int := match exponent with
    | 'e' :: '-' :: ds => -(digitsValue 10 ds : Int)
    | 'e' :: ds => digitsValue 10 ds
    | _ => 0
  match power - (fraction.drop 1).length with
  | .ofNat up =>
    mantissa = 0 || (up ≤ 400 && decide (mantissa * Nat.pow 10 up < tooLarge))
  | .negSucc down =>
    written.length ≤ down || decide (mantissa / Nat.pow 10 (down + 1) < tooLarge)

/-- Reads a number with a fraction or an exponent. -/
def decimal (s : List Char) : Option (Data × List Char) := do
  let (negative, s) := sign s
  let (digits, rest) ← plainDigits s
  let (fraction, exponent, rest) ←
    match exponent rest with
    | some (exponent, rest) => some ([], exponent, rest)
    | none => do
      let (fraction, rest) ← fraction rest
      match rest with
      | 'e' :: _ | 'E' :: _ => do
        let (exponent, rest) ← exponent rest
        some (fraction, exponent, rest)
      | rest => some (fraction, [], rest)
  let signed := if negative then '-' :: digits else digits
  if negative || isFinite digits fraction exponent then
    some (.real (String.ofList (signed ++ fraction ++ exponent)), rest)
  else none

/-- Reads infinity or the number that is none, with or without a sign. -/
def special (s : List Char) : Option (Data × List Char) :=
  let (negative, s) := sign s
  let write (word : String) := Data.real (if negative then "-" ++ word else word)
  match s with
  | 'i' :: 'n' :: 'f' :: rest => some (write "inf", rest)
  | 'n' :: 'a' :: 'n' :: rest => some (write "nan", rest)
  | _ => none

/-- Reads a number. -/
def number (s : List Char) : Option (Data × List Char) :=
  ((decimal s).or (special s)).or (integer s)

/-! ### Dates and times -/

/-- Reads two digits that spell a number from `least` to `most`. -/
def twoDigits (least most : Nat) : Take (List Char)
  | a :: b :: rest =>
    if a.isDigit && b.isDigit && least ≤ digitsValue 10 [a, b] && digitsValue 10 [a, b] ≤ most then
      some ([a, b], rest)
    else none
  | _ => none

/-- How many days a month of a year has. -/
def daysOf (year month : Nat) : Nat :=
  if month == 2 then
    if year % 4 == 0 && (year % 100 != 0 || year % 400 == 0) then 29 else 28
  else if month == 4 || month == 6 || month == 9 || month == 11 then 30
  else 31

/-- Reads a date. -/
def date : Take (List Char)
  | a :: b :: c :: d :: '-' :: rest =>
    if [a, b, c, d].all Char.isDigit then do
      let (month, rest) ← twoDigits 1 12 rest
      match rest with
      | '-' :: rest => do
        let last := daysOf (digitsValue 10 [a, b, c, d]) (digitsValue 10 month)
        let (day, rest) ← twoDigits 1 last rest
        some ([a, b, c, d, '-'] ++ month ++ '-' :: day, rest)
      | _ => none
    else none
  | _ => none

/-- Reads the part of a second, and keeps nine digits of it at most, without zeros at the end. -/
def secondFraction (s : List Char) : Option (List Char × List Char) :=
  match s with
  | '.' :: rest =>
    let digits := rest.takeWhile Char.isDigit
    if digits.isEmpty then none
    else
      let kept := ((digits.take 9).reverse.dropWhile (· == '0')).reverse
      some (if kept.isEmpty then [] else '.' :: kept, rest.dropWhile Char.isDigit)
  | s => some ([], s)

/-- Reads a time of day. -/
def time (s : List Char) : Option (List Char × List Char) := do
  let (hour, rest) ← twoDigits 0 23 s
  match rest with
  | ':' :: rest => do
    let (minute, rest) ← twoDigits 0 59 rest
    match rest with
    | ':' :: rest => do
      let (second, rest) ← twoDigits 0 60 rest
      let (part, rest) ← secondFraction rest
      some (hour ++ ':' :: minute ++ ':' :: second ++ part, rest)
    | _ => none
  | _ => none

/-- Reads the distance of a time from the standard time. -/
def offset : Take (List Char)
  | c :: rest =>
    if c == 'Z' || c == 'z' then some (['Z'], rest)
    else if c == '+' || c == '-' then do
      let (hour, rest) ← twoDigits 0 23 rest
      match rest with
      | ':' :: rest => do
        let (minute, rest) ← twoDigits 0 59 rest
        some (c :: hour ++ ':' :: minute, rest)
      | _ => none
    else none
  | [] => none

/-- Reads the time behind a date, with the mark between them and its distance from the standard
time. -/
def timeBehindDate (s : List Char) : List Char × List Char :=
  match s with
  | c :: rest =>
    if c == 'T' || c == 't' || c == ' ' then
      match time rest with
      | some (time, rest) =>
        let (distance, rest) := (offset rest).getD ([], rest)
        ('T' :: time ++ distance, rest)
      | none => ([], s)
    else ([], s)
  | [] => ([], [])

/-- The structured value of a date or time. -/
def dated (text : List Char) : Data :=
  .record [("$__toml_private_datetime", .text (String.ofList text))]

/-- Reads a date, a date with a time, or a time. -/
def dateTime (s : List Char) : Option (Data × List Char) :=
  match date s with
  | some (date, rest) =>
    let (time, rest) := timeBehindDate rest
    some (dated (date ++ time), rest)
  | none => (time s).map fun (time, rest) => (dated time, rest)

end CapabilityGate.Toml
