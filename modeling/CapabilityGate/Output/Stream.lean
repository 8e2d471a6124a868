import CapabilityGate.Text.Utf8

/-!
# Streams cut into chunks

What a program writes to a stream is taken up in pieces: a piece ends behind a line feed, or when
it has as many bytes as a piece may have. A chunk is the text of a piece without the line break at
its end.

## Main definitions

* `Stream.pieces`: the pieces of a stream.
* `Stream.chunk`: the text of a piece.
* `Stream.chunks`: the texts of all pieces.
-/

namespace CapabilityGate.Stream

/-- How many bytes a piece may have. -/
def maxPiece : Nat := 65536

/-- The line feed. -/
def lineFeed : UInt8 := 10

/-- The carriage return. -/
def carriageReturn : UInt8 := 13

/-- The pieces of a stream, of at most `size` bytes each. The bytes `taken` of the first piece,
last first, leave `room` for more in it; the pieces `done` come before, last first. -/
def piecesFrom (size : Nat) : List (List UInt8) → List UInt8 → (room : Nat) → List UInt8 →
    List (List UInt8)
  | done, [], _, [] => done.reverse
  | done, taken, _, [] => (taken.reverse :: done).reverse
  | done, taken, room, b :: rest =>
    if b = lineFeed || room ≤ 1 then
      piecesFrom size ((b :: taken).reverse :: done) [] size rest
    else piecesFrom size done (b :: taken) (room - 1) rest

/-- The **pieces** of a stream. -/
def pieces (bs : List UInt8) : List (List UInt8) :=
  piecesFrom maxPiece [] [] maxPiece bs

/-- Some bytes without the byte `b` at their end. -/
def dropLastIf (b : UInt8) (bs : List UInt8) : List UInt8 :=
  if bs.getLast? = some b then bs.dropLast else bs

/-- The text of a piece, without a line feed and then a carriage return at its end. -/
def chunk (piece : List UInt8) : String :=
  Text.decodeLossy (dropLastIf carriageReturn (dropLastIf lineFeed piece))

/-- The **chunks** of a stream. -/
def chunks (bs : List UInt8) : List String :=
  (pieces bs).map chunk

end CapabilityGate.Stream
