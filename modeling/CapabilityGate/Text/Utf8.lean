/-!
# Bytes as text

The bytes of a text in UTF-8, and back. Bytes that encode no text are cut into invalid parts,
each as long as the start of a character can be, and every part is read as the replacement
character.

## Main definitions

* `Text.bytesOf`: the bytes of a text.
* `Text.Utf8.scan`: the characters and invalid parts of some bytes.
* `Text.decode?`: the text that bytes encode, if they encode one.
* `Text.decodeLossy`: the text with replacement characters for invalid parts.
-/

namespace CapabilityGate.Text

/-- The bytes of a text. -/
def bytesOf (s : String) : List UInt8 :=
  s.toUTF8.toList

namespace Utf8

/-- The state between two bytes: outside a character, or inside one that has a number of bytes
to come, the first of them within bounds, and a value so far. -/
inductive State where
  /-- Outside a character. -/
  | outside
  /-- Inside a character. -/
  | inside (left : Nat) (least most : UInt8) (value : Nat)
  deriving Repr, DecidableEq

/-- The state after the first byte of a character of several bytes, if it can be one. -/
def lead? (b : UInt8) : Option State :=
  if b < 0xC2 then none
  else if b ≤ 0xDF then some (.inside 1 0x80 0xBF (b.toNat - 0xC0))
  else if b = 0xE0 then some (.inside 2 0xA0 0xBF 0)
  else if b = 0xED then some (.inside 2 0x80 0x9F 13)
  else if b ≤ 0xEF then some (.inside 2 0x80 0xBF (b.toNat - 0xE0))
  else if b = 0xF0 then some (.inside 3 0x90 0xBF 0)
  else if b ≤ 0xF3 then some (.inside 3 0x80 0xBF (b.toNat - 0xF0))
  else if b = 0xF4 then some (.inside 3 0x80 0x8F 4)
  else none

/-- What a byte outside a character makes of the state and adds to the characters `done`, the
last of which comes first. -/
def begin (done : List (Option Char)) (b : UInt8) : List (Option Char) × State :=
  if b < 0x80 then (some (Char.ofNat b.toNat) :: done, .outside)
  else
    match lead? b with
    | some state => (done, state)
    | none => (none :: done, .outside)

/-- What a byte makes of the state and adds to the characters `done`. A byte that does not go on
with the character ends an invalid part and is looked at afresh. -/
def next (done : List (Option Char)) (state : State) (b : UInt8) :
    List (Option Char) × State :=
  match state with
  | .outside => begin done b
  | .inside left least most value =>
    if least ≤ b && b ≤ most then
      let value := value * 64 + (b.toNat - 0x80)
      if left = 1 then (some (Char.ofNat value) :: done, .outside)
      else (done, .inside (left - 1) 0x80 0xBF value)
    else begin (none :: done) b

/-- The characters of some bytes behind those `done`, with none for an invalid part. -/
def scanFrom : List (Option Char) → State → List UInt8 → List (Option Char)
  | done, .outside, [] => done.reverse
  | done, .inside .., [] => (none :: done).reverse
  | done, state, b :: rest =>
    let (done, state) := next done state b
    scanFrom done state rest

/-- The **characters** of some bytes, with none for an invalid part. -/
def scan (bs : List UInt8) : List (Option Char) :=
  scanFrom [] .outside bs

end Utf8

/-- The text that bytes encode, if they encode one. -/
def decode? (bs : List UInt8) : Option String :=
  let cs := Utf8.scan bs
  if cs.all Option.isSome then some (String.ofList (cs.filterMap id)) else none

/-- The text that bytes encode, with the replacement character for each invalid part. -/
def decodeLossy (bs : List UInt8) : String :=
  String.ofList ((Utf8.scan bs).map fun c => c.getD '\uFFFD')

end CapabilityGate.Text
