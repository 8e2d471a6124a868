import CapabilityGate.Program.Token
import CapabilityGate.Text.NameChar

/-!
# From text to tokens

Cuts a program text into tokens. Blanks and comments separate tokens and are dropped, except for
documentation comments, which stand for the attribute they abbreviate. Each lexeme is described
by a function that says how many characters of it stand at the start of a text.

## Main definitions

* `skipGaps`: how far blanks and comments reach.
* `literalLength`, `nameLength`: how far a literal or a name reaches.
* `scan`: the tokens of a text, or the place that cannot be read.
-/

namespace CapabilityGate.Program.Lexer

open Text

/-! ### Blanks and comments -/

/-- The characters that separate tokens: blanks and the two directional marks. -/
def isGap (c : Char) : Bool :=
  isBlank c || c == '\u200e' || c == '\u200f'

/-- Whether a text starts with the characters of `word`. -/
def starts (word : String) (s : List Char) : Bool :=
  word.toList.isPrefixOf s

/-- The length of the rest of a line, without the line feed that ends it and a carriage return
right before that. -/
def lineLength : List Char → Nat
  | [] => 0
  | '\n' :: _ => 0
  | '\r' :: '\n' :: _ => 0
  | _ :: rest => lineLength rest + 1

/-- The length of the rest of a block comment that is open `depth + 1` levels deep, its end
included, or none when it has no end. Block comments nest. -/
def blockRest : (depth : Nat) → List Char → Option Nat
  | depth, '/' :: '*' :: rest => (blockRest (depth + 1) rest).map (· + 2)
  | 0, '*' :: '/' :: _ => some 2
  | depth + 1, '*' :: '/' :: rest => (blockRest depth rest).map (· + 2)
  | depth, _ :: rest => (blockRest depth rest).map (· + 1)
  | _, [] => none

/-- The length of the block comment at the start of a text. -/
def blockLength (s : List Char) : Option Nat :=
  if starts "/*" s then (blockRest 0 (s.drop 2)).map (· + 2) else none

/-- Whether an ordinary line comment starts here: one that documents nothing. -/
def startsLineComment (s : List Char) : Bool :=
  starts "//" s && (!starts "///" s || starts "////" s) && !starts "//!" s

/-- Whether an ordinary block comment starts here. -/
def startsBlockComment (s : List Char) : Bool :=
  starts "/*" s && (!starts "/**" s || starts "/***" s) && !starts "/*!" s

/-- The number of blanks and characters of ordinary comments at the start of a text. -/
def gapLength : (fuel : Nat) → List Char → Nat
  | 0, _ => 0
  | fuel + 1, s =>
    let step (n : Nat) : Nat := n + gapLength fuel (s.drop n)
    if startsLineComment s then step (2 + lineLength (s.drop 2))
    else if starts "/**/" s then step 4
    else if startsBlockComment s then
      match blockLength s with
      | some n => step n
      | none => 0
    else
      match s with
      | c :: _ => if isGap c then step 1 else 0
      | [] => 0

/-- The number of characters that separate the start of a text from its first token. -/
def skipGaps (s : List Char) : Nat :=
  gapLength (s.length + 1) s

/-- A documentation comment at the start of a text: its length, the documentation itself, and
whether it documents what it stands in. -/
def docComment? (s : List Char) : Option (Nat × List Char × Bool) :=
  let line (inner : Bool) : Option (Nat × List Char × Bool) :=
    let n := lineLength (s.drop 3)
    let ended := if (s.drop (3 + n)).head? == some '\r' then 1 else 0
    some (3 + n + ended, (s.drop 3).take n, inner)
  let block (inner : Bool) : Option (Nat × List Char × Bool) :=
    (blockLength s).map fun n => (n, (s.take (n - 2)).drop 3, inner)
  if starts "//!" s then line true
  else if starts "/*!" s then block true
  else if starts "///" s then if starts "////" s then none else line false
  else if starts "/**" s && !starts "/***" s then block false
  else none

/-- Whether a carriage return stands in the text without a line feed behind it. -/
def hasBareReturn : List Char → Bool
  | '\r' :: '\n' :: rest => hasBareReturn rest
  | '\r' :: _ => true
  | _ :: rest => hasBareReturn rest
  | [] => false

/-! ### Names -/

/-- The length of the name at the start of a text, or zero. -/
def plainNameLength : List Char → Nat
  | c :: rest => if startsName c then 1 + (rest.takeWhile continuesName).length else 0
  | [] => 0

/-- The names that cannot be written with `r#`. -/
def neverRaw : List String :=
  ["_", "super", "self", "Self", "crate"]

/-- The length of the name at the start of a text, with its `r#` when it has one. -/
def anyNameLength (s : List Char) : Option Nat :=
  if starts "r#" s then
    let n := plainNameLength (s.drop 2)
    if n == 0 || neverRaw.contains (String.ofList ((s.drop 2).take n)) then none
    else some (n + 2)
  else
    let n := plainNameLength s
    if n == 0 then none else some n

/-- The starts of literals that are no names. -/
def literalStarts : List String :=
  ["r\"", "r#\"", "r##", "b\"", "b'", "br\"", "br#", "c\"", "cr\"", "cr#"]

/-- The length of the name at the start of a text that starts no literal. -/
def nameLength (s : List Char) : Option Nat :=
  if literalStarts.any (starts · s) then none else anyNameLength s

/-- The name at the start of a text is made of characters of words. -/
theorem all_isWordChar_take_plainNameLength (s : List Char) :
    (s.take (plainNameLength s)).all isWordChar = true := by
  cases s with
  | nil => rfl
  | cons c rest =>
      rw [plainNameLength]
      split
      next hc =>
        have htake : rest.take (rest.takeWhile continuesName).length =
            rest.takeWhile continuesName :=
          (List.prefix_iff_eq_take.mp (List.takeWhile_prefix _)).symm
        have hrest : (rest.takeWhile continuesName).all isWordChar = true := by
          rw [List.all_eq_true]
          intro d hd
          have hd := List.all_eq_true.mp List.all_takeWhile d hd
          simp [isWordChar, hd]
        rw [Nat.add_comm, List.take_succ_cons, htake, List.all_cons, hrest]
        simp [isWordChar, hc]
      next => rfl

/-- What is scanned as a name **is a word**. -/
theorem isWord_take_nameLength {s : List Char} {n : Nat} (h : nameLength s = some n) :
    isWord (String.ofList (s.take n)) = true := by
  have hname : anyNameLength s = some n := by
    rw [nameLength] at h
    split at h
    · simp at h
    · exact h
  have hplain := all_isWordChar_take_plainNameLength s
  have hraw := all_isWordChar_take_plainNameLength (s.drop 2)
  simp only [anyNameLength] at hname
  simp only [isWord, String.toList_ofList]
  split at hname
  next hstarts =>
    obtain ⟨rest, rfl⟩ : ∃ rest, s = 'r' :: '#' :: rest := by
      obtain ⟨rest, hrest⟩ := List.isPrefixOf_iff_prefix.mp hstarts
      exact ⟨rest, hrest.symm⟩
    split at hname
    · simp at hname
    · obtain rfl := Option.some.inj hname
      have hr : isWordChar 'r' = true := by decide
      have hhash : isWordChar '#' = true := by decide
      simp only [List.drop_succ_cons, List.drop_zero] at hraw ⊢
      simp [hraw, hr, hhash]
  next =>
    split at hname
    · simp at hname
    next hzero =>
      obtain rfl := Option.some.inj hname
      cases s with
      | nil => simp [plainNameLength] at hzero
      | cons c rest =>
          have hpos : plainNameLength (c :: rest) ≠ 0 := by simpa using hzero
          obtain ⟨m, hm⟩ := Nat.exists_eq_succ_of_ne_zero hpos
          rw [hplain, hm]
          rfl

/-! ### Literals -/

/-- The value of a digit of base sixteen, in either case. -/
def hexValue? (c : Char) : Option Nat :=
  if '0' ≤ c && c ≤ '9' then some (c.toNat - 48)
  else if 'a' ≤ c && c ≤ 'f' then some (c.toNat - 87)
  else if 'A' ≤ c && c ≤ 'F' then some (c.toNat - 55)
  else none

/-- What the characters of a quoted literal stand for. -/
inductive Quoted where
  /-- Text: any characters, with escapes for any scalar value. -/
  | text
  /-- Bytes: ASCII characters, with escapes for any byte. -/
  | bytes
  /-- Text without the character zero. -/
  | zeroless
  deriving Repr, DecidableEq

/-- The digits of an escape for a scalar value, up to the closing brace: the value and the number
of characters. Up to six digits count, and underscores may follow the first. -/
def scalarDigits : (value count : Nat) → List Char → Option (Nat × Nat)
  | value, count, c :: rest =>
    match hexValue? c with
    | some d =>
      if count == 6 then none
      else (scalarDigits (value * 16 + d) (count + 1) rest).map fun (v, n) => (v, n + 1)
    | none =>
      if count == 0 then none
      else if c == '_' then (scalarDigits value count rest).map fun (v, n) => (v, n + 1)
      else if c == '\x7d' then
        if value < 0xD800 || (0xDFFF < value && value < 0x110000) then some (value, 1) else none
      else none
  | _, _, [] => none

/-- The length of an escape without its backslash. A backslash before a line break is no escape
of this kind. -/
def escapeLength (kind : Quoted) : List Char → Option Nat
  | 'x' :: a :: b :: _ => do
    let a ← hexValue? a
    let b ← hexValue? b
    match kind with
    | .text => if a < 8 then some 3 else none
    | .bytes => some 3
    | .zeroless => if a == 0 && b == 0 then none else some 3
  | 'u' :: '\x7b' :: rest => do
    let (value, n) ← scalarDigits 0 0 rest
    match kind with
    | .text => some (n + 2)
    | .bytes => none
    | .zeroless => if value == 0 then none else some (n + 2)
  | '0' :: _ => if kind == .zeroless then none else some 1
  | c :: _ => if "nrt\\'\"".toList.contains c then some 1 else none
  | [] => none

/-- The length of the blanks that a backslash at the end of a line skips, from that line's end
on, or none when the text ends or a carriage return stands alone. -/
def continuationLength : List Char → Option Nat
  | '\r' :: '\n' :: rest => (continuationLength rest).map (· + 2)
  | '\r' :: _ => none
  | '\n' :: rest => (continuationLength rest).map (· + 1)
  | ' ' :: rest => (continuationLength rest).map (· + 1)
  | '\t' :: rest => (continuationLength rest).map (· + 1)
  | _ :: _ => some 0
  | [] => none

/-- The length of a quoted literal from behind its opening quote to behind its closing one. -/
def quotedRest (kind : Quoted) : (fuel : Nat) → List Char → Option Nat
  | 0, _ => none
  | fuel + 1, s =>
    let step (n : Nat) : Option Nat := (quotedRest kind fuel (s.drop n)).map (· + n)
    match s with
    | [] => none
    | '"' :: _ => some 1
    | '\r' :: '\n' :: _ => step 2
    | '\r' :: _ => none
    | '\\' :: '\n' :: _ => (continuationLength (s.drop 1)).bind fun n => step (n + 1)
    | '\\' :: '\r' :: _ => (continuationLength (s.drop 1)).bind fun n => step (n + 1)
    | '\\' :: _ => (escapeLength kind (s.drop 1)).bind fun n => step (n + 1)
    | c :: _ =>
      match kind with
      | .text => step 1
      | .bytes => if c.toNat < 0x80 then step 1 else none
      | .zeroless => if c == '\x00' then none else step 1

/-- The length of a raw literal's text up to behind its closing quote and `hashes`. -/
def rawRest (kind : Quoted) (hashes : List Char) : List Char → Option Nat
  | [] => none
  | '"' :: rest =>
    if hashes.isPrefixOf rest then some (1 + hashes.length)
    else (rawRest kind hashes rest).map (· + 1)
  | '\r' :: '\n' :: rest => (rawRest kind hashes rest).map (· + 2)
  | '\r' :: _ => none
  | c :: rest =>
    if (kind == .bytes && 0x80 ≤ c.toNat) || (kind == .zeroless && c == '\x00') then none
    else (rawRest kind hashes rest).map (· + 1)

/-- The length of a raw literal from behind its `r`: hashes, a quote, the text, a quote and as
many hashes. -/
def rawLength (kind : Quoted) (s : List Char) : Option Nat :=
  let hashes := s.takeWhile (· == '#')
  match s.dropWhile (· == '#') with
  | '"' :: rest =>
    if 255 < hashes.length then none
    else (rawRest kind hashes rest).map (· + (hashes.length + 1))
  | _ => none

/-- The length of a character or byte literal from behind its opening quote. -/
def singleLength (kind : Quoted) : List Char → Option Nat
  | '\\' :: rest => do
    let n ← escapeLength kind rest
    if (rest.drop n).head? == some '\'' then some (n + 2) else none
  | c :: '\'' :: _ => if kind == .bytes && 0x80 ≤ c.toNat then none else some 2
  | _ => none

/-- The length of a literal in quotes of any kind, without its suffix. -/
def quoteLength (s : List Char) : Option Nat :=
  let after (n : Nat) (f : List Char → Option Nat) : Option Nat := (f (s.drop n)).map (· + n)
  if starts "\"" s then after 1 (quotedRest .text s.length)
  else if starts "r" s then after 1 (rawLength .text)
  else if starts "b\"" s then after 2 (quotedRest .bytes s.length)
  else if starts "br" s then after 2 (rawLength .bytes)
  else if starts "c\"" s then after 2 (quotedRest .zeroless s.length)
  else if starts "cr" s then after 2 (rawLength .zeroless)
  else if starts "b'" s then after 2 (singleLength .bytes)
  else if starts "'" s then after 1 (singleLength .text)
  else none

/-- The digits and underscores before the point or the exponent of a number, then perhaps a point
and more of them: their number, whether there is a point, and whether an exponent follows. A point
before a name or a second point belongs to no number. -/
def floatHead : (hasPoint : Bool) → List Char → Option (Nat × Bool × Bool)
  | hasPoint, '.' :: rest =>
    if hasPoint then some (0, true, false)
    else
      match rest with
      | c :: _ =>
        if c == '.' || startsName c then none
        else (floatHead true rest).map fun (n, p, e) => (n + 1, p, e)
      | [] => some (1, true, false)
  | hasPoint, c :: rest =>
    if c.isDigit || c == '_' then (floatHead hasPoint rest).map fun (n, p, e) => (n + 1, p, e)
    else if c == 'e' || c == 'E' then some (0, hasPoint, true)
    else some (0, hasPoint, false)
  | hasPoint, [] => some (0, hasPoint, false)

/-- The length of an exponent behind its mark: perhaps a sign, then digits and underscores with
at least one digit. A second sign before a digit is refused, one behind it ends the exponent. -/
def exponentLength : (hasSign hasValue : Bool) → List Char → Option Nat
  | hasSign, hasValue, c :: rest =>
    if c == '+' || c == '-' then
      if hasValue then some 0
      else if hasSign then none
      else (exponentLength true hasValue rest).map (· + 1)
    else if c.isDigit then (exponentLength hasSign true rest).map (· + 1)
    else if c == '_' then (exponentLength hasSign hasValue rest).map (· + 1)
    else if hasValue then some 0 else none
  | _, hasValue, [] => if hasValue then some 0 else none

/-- The length of a number with a point or an exponent, without its suffix. When what looks like
an exponent is none, the number ends before it if it has a point. -/
def floatDigits (s : List Char) : Option Nat :=
  match s with
  | c :: rest =>
    if !c.isDigit then none
    else do
      let (n, hasPoint, hasExponent) ← floatHead false rest
      if hasExponent then
        match exponentLength false false (rest.drop (n + 1)) with
        | some m => some (n + m + 2)
        | none => if hasPoint then some (n + 1) else none
      else if hasPoint then some (n + 1)
      else none
  | [] => none

/-- The length of the digits of a whole number in a base up to sixteen, and whether there is a
digit. A decimal digit beyond the base is refused, and so is an underscore before the first
decimal digit of base ten. -/
def digitsLength (base : Nat) : (empty : Bool) → List Char → Option (Nat × Bool)
  | empty, c :: rest =>
    if c.isDigit then
      if base ≤ c.toNat - 48 then none
      else (digitsLength base false rest).map fun (n, e) => (n + 1, e)
    else if c == '_' then
      if empty && base == 10 then none
      else (digitsLength base empty rest).map fun (n, e) => (n + 1, e)
    else
      match hexValue? c with
      | some d =>
        if base ≤ d then some (0, empty)
        else (digitsLength base false rest).map fun (n, e) => (n + 1, e)
      | none => some (0, empty)
  | empty, [] => some (0, empty)

/-- The length of a whole number with the mark of its base, without its suffix. -/
def intDigits (s : List Char) : Option Nat :=
  let digits (base skipped : Nat) : Option Nat :=
    match digitsLength base true (s.drop skipped) with
    | some (n, false) => some (n + skipped)
    | _ => none
  if starts "0x" s then digits 16 2
  else if starts "0o" s then digits 8 2
  else if starts "0b" s then digits 2 2
  else digits 10 0

/-- The length of a number of `n` characters with the suffix behind it, which no other character
of a name may follow. -/
def withSuffix (s : List Char) (n : Nat) : Option Nat :=
  let n := n + plainNameLength (s.drop n)
  match s.drop n with
  | c :: _ => if continuesName c then none else some n
  | [] => some n

/-- The length of the literal at the start of a text, with its suffix. -/
def literalLength (s : List Char) : Option Nat :=
  match quoteLength s with
  | some n => some (n + plainNameLength (s.drop n))
  | none => ((floatDigits s).bind (withSuffix s)).or ((intDigits s).bind (withSuffix s))

/-! ### Punctuation -/

/-- The punctuation characters. -/
def marks : List Char :=
  "~!@#$%^&*-=+|;:,<.>/?'".toList

/-- Whether a mark stands at the start of a text. A slash that opens a comment is none. -/
def startsMark (s : List Char) : Bool :=
  !starts "//" s && !starts "/*" s &&
    match s with
    | c :: _ => marks.contains c
    | [] => false

/-- Whether the quote before `s` marks a lifetime: a name follows, and neither a quote nor a hash
behind that, unless the name is written with `r#`. -/
def marksLifetime (s : List Char) : Bool :=
  match anyNameLength s with
  | none => false
  | some n =>
    match s.drop n with
    | '\'' :: _ => false
    | '#' :: _ => starts "r#" s
    | _ => true

/-- The mark at the start of a text, and whether it is joined to another. -/
def mark? (s : List Char) : Option (Char × Bool) :=
  if startsMark s then
    match s with
    | '\'' :: rest => if marksLifetime rest then some ('\'', true) else none
    | c :: rest => some (c, startsMark rest)
    | [] => none
  else none

/-! ### Tokens -/

/-- The placeholder that compilers print for a token they could not read. It is a literal. -/
def errorPlaceholder : String := "(/*ERROR*/)"

/-- The token at the start of a text that is no group, and its length. -/
def leaf? (s : List Char) (p : Position) : Option (Token × Nat) :=
  match literalLength s with
  | some n => some (.literal (String.ofList (s.take n)) p, n)
  | none =>
    match mark? s with
    | some (c, joint) => some (.mark c joint p, 1)
    | none =>
      match h : nameLength s with
      | some n => some (.name ⟨String.ofList (s.take n), isWord_take_nameLength h⟩ p, n)
      | none =>
        if starts errorPlaceholder s then
          some (.literal errorPlaceholder p, errorPlaceholder.length)
        else none

/-- A text as the literal of a string. -/
def stringLiteral (s : List Char) : String :=
  let escape (c : Char) : List Char :=
    match c with
    | '\x00' => ['\\', '0']
    | '\t' => ['\\', 't']
    | '\r' => ['\\', 'r']
    | '\n' => ['\\', 'n']
    | '\\' => ['\\', '\\']
    | '"' => ['\\', '"']
    | c => [c]
  String.ofList ('"' :: s.flatMap escape ++ ['"'])

/-- The name of the attribute that holds documentation. -/
def docWord : Word := ⟨"doc", by decide⟩

/-- The attribute that a documentation comment stands for. All its tokens start with the
comment. -/
def docAttribute (doc : List Char) (inner : Bool) (p : Position) : List Token :=
  .mark '#' false p ::
    (if inner then [.mark '!' false p] else []) ++
    [.group .bracket
      [.name docWord p, .mark '=' false p, .literal (stringLiteral doc) p] p p]

/-- A group that is still open: its delimiter, where it opens, and the tokens before it,
backwards. -/
structure Frame where
  /-- The delimiter that opened the group. -/
  delimiter : Delimiter
  /-- Where the group opens. -/
  opens : Position
  /-- The tokens before the group, the last one first. -/
  before : List Token

/-- Reads tokens to the end of the text. `open_` holds the open groups, the innermost first, and
`done` the tokens of the innermost, backwards. The error is the place that cannot be read: a
closing delimiter that matches no opening one, the innermost delimiter still open at the end, or
the start of what is no token. -/
def scanFrom : (fuel : Nat) → List Char → Position → (open_ : List Frame) → (done : List Token) →
    Except Position (List Token)
  | 0, _, p, _, _ => .error p
  | fuel + 1, s, p, open_, done =>
    let gap := gapLength (fuel + 1) s
    let p := p.afterAll (s.take gap)
    let s := s.drop gap
    let next (n : Nat) (open_ : List Frame) (done : List Token) :=
      scanFrom fuel (s.drop n) (p.afterAll (s.take n)) open_ done
    match docComment? s with
    | some (n, doc, inner) =>
      if hasBareReturn doc then .error p
      else next n open_ ((docAttribute doc inner p).reverse ++ done)
    | none =>
      match s with
      | [] =>
        match open_ with
        | [] => .ok done.reverse
        | frame :: _ => .error frame.opens
      | c :: _ =>
        match Delimiter.opened? c, Delimiter.closed? c with
        | some d, _ =>
          if starts errorPlaceholder s then
            next errorPlaceholder.length open_ (.literal errorPlaceholder p :: done)
          else next 1 (⟨d, p, done⟩ :: open_) []
        | none, some d =>
          match open_ with
          | [] => .error p
          | frame :: rest =>
            if frame.delimiter = d then
              next 1 rest (.group d done.reverse frame.opens p :: frame.before)
            else .error p
        | none, none =>
          match leaf? s p with
          | some (t, n) => next n open_ (t :: done)
          | none => .error p

/-- The mark that says in which order the bytes of a text stand. -/
def byteOrderMark : Char := '\ufeff'

/-- The tokens of a text. A byte order mark at its start is no token, but takes a column. -/
def scan (s : List Char) : Except Position (List Token) :=
  match s with
  | c :: rest =>
    if c == byteOrderMark then scanFrom (rest.length + 1) rest (Position.start.after c) [] []
    else scanFrom (s.length + 1) s .start [] []
  | [] => .ok []

/-- A source text without what stands before its program: a byte order mark, and a first line
that starts with `#!` and does not go on to open an attribute. The line break that ends that line
stays, so that places are counted as in the text. -/
def programText (s : List Char) : List Char :=
  let s := match s with
    | c :: rest => if c == byteOrderMark then rest else s
    | [] => []
  if starts "#!" s then
    let rest := s.drop 2
    if (rest.drop (skipGaps rest)).head? == some '[' then s
    else s.dropWhile (· != '\n')
  else s

end CapabilityGate.Program.Lexer
