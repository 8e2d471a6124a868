/-!
# Blank characters

The characters that separate words in every text this library reads, and the ways a text is
stripped of them. A character is blank when it has the White_Space property.

## Main definitions

* `isBlank`: the White_Space property.
* `withoutBlanks`: a text with every blank character left out.
* `trimBlanks`, `trimBlanksRight`: a text without the blank characters at its ends.
-/

namespace CapabilityGate.Text

/-- Whether one of the `ranges`, each given by its least and its greatest member, holds `n`. -/
def inRanges (ranges : List (Nat × Nat)) (n : Nat) : Bool :=
  ranges.any fun r => r.1 ≤ n && n ≤ r.2

/-- The blank characters beyond ASCII. -/
def blankRanges : List (Nat × Nat) :=
  [(0x85, 0x85), (0xA0, 0xA0), (0x1680, 0x1680), (0x2000, 0x200A), (0x2028, 0x2029),
   (0x202F, 0x202F), (0x205F, 0x205F), (0x3000, 0x3000)]

/-- A character is **blank** when it is a space, a control character from tab to carriage
return, or one of the separators in `blankRanges`. -/
def isBlank (c : Char) : Bool :=
  if c.toNat < 0x80 then c == ' ' || (0x09 ≤ c.toNat && c.toNat ≤ 0x0D)
  else inRanges blankRanges c.toNat

/-- The characters of a text that are not blank, in order. -/
def withoutBlanks (s : List Char) : List Char :=
  s.filter fun c => !isBlank c

/-- A text without the blank characters at its end. -/
def trimBlanksRight (s : String) : String :=
  String.ofList (s.toList.reverse.dropWhile isBlank).reverse

/-- A text without the blank characters at either end. -/
def trimBlanks (s : String) : String :=
  String.ofList ((s.toList.dropWhile isBlank).reverse.dropWhile isBlank).reverse

@[simp] theorem withoutBlanks_nil : withoutBlanks [] = [] := rfl

@[simp] theorem withoutBlanks_append (s t : List Char) :
    withoutBlanks (s ++ t) = withoutBlanks s ++ withoutBlanks t := by
  simp [withoutBlanks]

/-- Leaving the blanks out a second time changes nothing. -/
@[simp] theorem withoutBlanks_withoutBlanks (s : List Char) :
    withoutBlanks (withoutBlanks s) = withoutBlanks s := by
  simp [withoutBlanks]

end CapabilityGate.Text
