import CapabilityGate.Text.NameChar

/-!
# Words

The names and keywords of a program text. A word has at least one character, and all its
characters may stand in a name or in the `r#` before one, so a word never holds a blank, a colon
or another mark that a path or the text of a type is cut at.

## Main definitions

* `isWord`: whether a text is a word.
* `Word`: a text that is one.
-/

namespace CapabilityGate.Program

open Text

/-- Whether a character may stand in a word. -/
def isWordChar (c : Char) : Bool :=
  startsName c || continuesName c || c == '#'

/-- Whether a text is a word. -/
def isWord (s : String) : Bool :=
  !s.toList.isEmpty && s.toList.all isWordChar

/-- A **word**: a name or keyword, with its `r#` when it has one. -/
structure Word where
  /-- Its text. -/
  text : String
  /-- The text is that of a word. -/
  isWord : isWord text = true
  deriving Repr, DecidableEq

instance : Inhabited Word := ⟨⟨"_", by decide⟩⟩

end CapabilityGate.Program
